import CipherLake.CoordinatorProofs
import CipherLake.KeyServices
import CipherLake.Lib.Runs

/-! Which start-ups of the two key services end with services that understand each
other. On P-256, and with the key generation service started first where there
are no key files, every wrapped key is unwrapped. In an empty directory the
unwrapping service panics, and it reads the point in front of a wrapped key with
the length of P-256 whatever the curve is. -/
namespace CipherLake.KeyServices
open Lib Lib.Runs StreamCipher Coordinator List Option

/-! ### Points -/

section Points

variable {E : Arithmetic} {c : Curve} {point : Nat × Nat}

theorem marshalPoint_length (c : Curve) (point : Nat × Nat) : (marshalPoint c point).length = 1 + 2 * c.byteLen := by
  simp only [marshalPoint, length_cons, length_append, bigEndian_length]
  omega

/-- A point on its curve is read back. -/
theorem unmarshalPoint_marshalPoint (valid : E.onCurve c point = true) :
    unmarshalPoint E c (marshalPoint c point) = some point := by
  obtain ⟨first, second⟩ := E.onCurve_small c point valid
  have width := bigEndian_length c.byteLen point.1
  have coordinates : (ofBigEndian ((bigEndian c.byteLen point.1 ++ bigEndian c.byteLen point.2).take c.byteLen),
      ofBigEndian ((bigEndian c.byteLen point.1 ++ bigEndian c.byteLen point.2).drop c.byteLen)) = point := by
    rw [take_left' width, drop_left' width, ofBigEndian_bigEndian first, ofBigEndian_bigEndian second]
  have length : (bigEndian c.byteLen point.1 ++ bigEndian c.byteLen point.2).length = 2 * c.byteLen := by
    simp only [length_append, bigEndian_length]
    omega
  simp only [marshalPoint, unmarshalPoint, coordinates, length, valid, and_self, if_true]

/-- A point of the length that is read is one of P-256. -/
theorem unmarshalPoint_other {data : Bytes} (other : c ≠ .p256) (length : data.length = pubKeyLen) :
    unmarshalPoint E c data = none := by
  cases data with
  | nil => rfl
  | cons first coordinates =>
    have count : coordinates.length = 64 := by
      simpa only [length_cons, pubKeyLen, Nat.add_eq_right, Nat.reduceEqDiff] using length
    have differs : coordinates.length ≠ 2 * c.byteLen := by
      rw [count]
      cases c with
      | p256 => exact absurd rfl other
      | p384 => decide
      | p521 => decide
    simp [unmarshalPoint, differs]

end Points

/-! ### One key pair -/

section Pair

variable {E : Arithmetic} {C : Primitives} {A : Agreement}

theorem newCipher_ok {key : Bytes} (length : key.length = 32) : newCipher key = .ok () := by
  simp [newCipher, length]

/-- A wrapped key comes apart again. -/
theorem blob_parts {point nonce : Bytes} (length : point.length = pubKeyLen) (size : nonce.length = nonceLen)
    (ciphertext : Bytes) :
    ¬ (point ++ nonce ++ ciphertext).length < pubKeyLen ∧
      ¬ (point ++ nonce ++ ciphertext).length < pubKeyLen + nonceLen ∧
      (point ++ nonce ++ ciphertext).take pubKeyLen = point ∧
      ((point ++ nonce ++ ciphertext).drop pubKeyLen).take nonceLen = nonce ∧
      (point ++ nonce ++ ciphertext).drop (pubKeyLen + nonceLen) = ciphertext := by
  have front : (point ++ nonce).length = pubKeyLen + nonceLen := by rw [length_append, length, size]
  have total : (point ++ nonce ++ ciphertext).length = pubKeyLen + nonceLen + ciphertext.length := by
    rw [length_append, front]
  refine ⟨by omega, by omega, ?_, ?_, drop_left' front⟩
  · rw [append_assoc, take_left' length]
  · rw [append_assoc, drop_left' length, take_left' size]

/-- What is wrapped for a key of P-256 is unwrapped with it. -/
theorem decrypt_encrypt (hkdf : ∀ secret info, (A.hkdf secret info).length = 32) {g : KeyGenService E}
    {u : KeyUnwrapService E} (curve : g.curve = .p256) (keyCurve : u.decryptPrivKey.curve = .p256)
    (pair : g.encryptPublicKey = u.decryptPrivKey.publicKey) (draws : WrapDraws E) {d : Nat} {nonce : Bytes}
    (drawn : draws.ephemeral g.curve = .ok d) (drewNonce : draws.nonce = .ok nonce) (size : nonce.length = nonceLen)
    (dek : Bytes) :
    ∃ blob, encryptDEKWithPublicKey C A g draws dek = some (.ok blob) ∧
      decryptDEKWithPrivateKey C A u blob.encryptedKey = .ok dek := by
  obtain ⟨⟨keyCurve', secret, scalar⟩, keyID⟩ := u
  obtain rfl : keyCurve' = .p256 := keyCurve
  have ephemeral : E.scalar .p256 d = true := curve ▸ draws.drawn g.curve d drawn
  have point : g.encryptPublicKey.point = E.scalarBaseMult .p256 secret := by rw [pair]; rfl
  have valid : E.onCurve .p256 (E.scalarBaseMult .p256 secret) = true := E.base_onCurve .p256 secret scalar
  have agree := E.agreement .p256 secret d scalar ephemeral
  have length : (marshalPoint .p256 (E.scalarBaseMult .p256 d)).length = pubKeyLen := marshalPoint_length _ _
  rw [curve] at drawn
  simp only [encryptDEKWithPublicKey, curve, drawn, point, valid, Bool.true_eq_false, if_false, agree,
    deriveSymmetricKey, newCipher_ok (hkdf _ _), drewNonce, wrap]
  refine ⟨_, rfl, ?_⟩
  generalize symKey : A.hkdf (coordinateBytes .p256 (E.scalarMult .p256 (E.scalarBaseMult .p256 d) secret).1)
    (marshalPoint .p256 (E.scalarBaseMult .p256 d)) = key
  have keySize : key.length = 32 := symKey ▸ hkdf _ _
  obtain ⟨longEnough, hasNonce, pointOf, nonceOf, sealedOf⟩ :=
    blob_parts length size (C.gcmSeal key nonce dek)
  have readBack := unmarshalPoint_marshalPoint (E.base_onCurve .p256 d ephemeral)
  simp only [decryptDEKWithPrivateKey, if_neg longEnough, if_neg hasNonce, pointOf, nonceOf, sealedOf,
    KeyUnwrapService.curve, readBack, deriveSymmetricKey, symKey, newCipher_ok keySize, C.open_seal]
  rfl

/-- With a key on another curve nothing is unwrapped. -/
theorem decrypt_other {u : KeyUnwrapService E} (other : u.decryptPrivKey.curve ≠ .p256) (encryptedKey : Bytes) :
    ∃ e, decryptDEKWithPrivateKey C A u encryptedKey = .error e := by
  unfold decryptDEKWithPrivateKey
  split
  · exact ⟨_, rfl⟩
  have length : (encryptedKey.take pubKeyLen).length = pubKeyLen := by
    rw [length_take]
    omega
  have unread : unmarshalPoint E u.curve (encryptedKey.take pubKeyLen) = none := unmarshalPoint_other other length
  rw [unread]
  exact ⟨_, rfl⟩

end Pair

/-! ### The local service of the coordinator -/

section Local

variable {E : Arithmetic} {C : Primitives} {A : Agreement}

/-- On P-256 the service is the one that the coordinator calls when it is local,
where a private key is known by its bytes. -/
theorem generateDataKey_local {g : KeyGenService E} (curve : g.curve = .p256)
    (valid : E.onCurve .p256 g.encryptPublicKey.point = true) (publicKey : ∀ d, E.scalar .p256 d = true →
      A.publicKey (bigEndian 32 d) = marshalPoint .p256 (E.scalarBaseMult .p256 d))
    (small : ∀ d, E.scalar .p256 d = true → d < 256 ^ 32) (dek : Except Bytes Bytes) (draws : WrapDraws E)
    (session : SessionDraws) (claimed : Claimed) (clientECDHPub : ECDHPublicKey) :
    generateDataKey C A g dek draws session claimed clientECDHPub = some (Coordinator.generateDataKey C A
        (fun priv => coordinateBytes .p256 (E.scalarMult .p256 g.encryptPublicKey.point (ofBigEndian priv)).1)
        ⟨dek, (draws.ephemeral .p256).map (bigEndian 32), draws.nonce, draws.keyID, session.priv, session.nonce⟩
        clientECDHPub) := by
  cases dek with
  | error e => rfl
  | ok dek =>
    simp only [generateDataKey, encryptDEKWithPublicKey, curve]
    cases drawn : draws.ephemeral .p256 with
    | error e => rfl
    | ok d =>
      have scalar := draws.drawn .p256 d drawn
      have okBind : ∀ {α β : Type} (a : α) (f : α → Except Bytes β), (Except.ok a >>= f) = f a := fun _ _ => rfl
      have wrapOk : ∀ {α : Type} (text : String) (a : α), wrap text (.ok a) = .ok a := fun _ _ => rfl
      simp [valid, Coordinator.generateDataKey, Coordinator.encryptDEKWithPublicKey, Except.map, wrapOk, okBind,
        publicKey d scalar, ofBigEndian_bigEndian (small d scalar), deriveSymmetricKey, encryptForClient,
        encryptDEKWithSessionKey]

end Local

/-! ### Start-ups -/

section Startups

variable {E : Arithmetic} {X : X509 E} {C : Primitives} {A : Agreement} {cfg : Config}

/-- The key that `GenerateKey` draws in a start, and the random key id. -/
structure Draw (E : Arithmetic) where
  generateKey : Curve → Except Bytes Nat
  drawn : ∀ c d, generateKey c = .ok d → E.scalar c d = true
  keyID : Bytes

/-- A start at which the files can be read and written. -/
def Draw.startup (draw : Draw E) : Startup E := ⟨false, draw.generateKey, draw.drawn, none, none, none, draw.keyID⟩

inductive Start (E : Arithmetic) where
  | keyGen (draw : Draw E)
  | keyUnwrap (draw : Draw E)

/-- The key files and the services that run, and whether a constructor has
panicked. -/
structure State (E : Arithmetic) where
  files : KeyFiles
  gen : Option (KeyGenService E)
  unwrap : Option (KeyUnwrapService E)
  panicked : Bool

def State.initial (E : Arithmetic) (files : KeyFiles) : State E := ⟨files, none, none, false⟩

/-- A service is started, for the first time or again. -/
def next (X : X509 E) (cfg : Config) (w : State E) : Start E → Option (State E)
  | .keyGen draw =>
    match newKeyGenService X cfg draw.startup w.files with
    | (.error _, files) => some { w with files, gen := none }
    | (.ok gen, files) => some { w with files, gen := some gen }
  | .keyUnwrap draw =>
    match newKeyUnwrapService X cfg draw.startup w.files with
    | (none, files) => some { w with files, unwrap := none, panicked := true }
    | (some (.error _), files) => some { w with files, unwrap := none }
    | (some (.ok unwrap), files) => some { w with files, unwrap := some unwrap }

/-- No constructor has panicked, and every data key that the one service wraps the
other one unwraps. -/
def Unwraps (C : Primitives) (A : Agreement) (w : State E) : Prop :=
  w.panicked = false ∧ ∀ g u, w.gen = some g → w.unwrap = some u →
    ∀ (draws : WrapDraws E) (d : Nat) (nonce dek : Bytes), draws.ephemeral g.curve = .ok d →
      draws.nonce = .ok nonce → nonce.length = nonceLen →
      ∃ blob, encryptDEKWithPublicKey C A g draws dek = some (.ok blob) ∧
        decryptDEKWithPrivateKey C A u blob.encryptedKey = .ok dek

/-- The files of a key pair. -/
def pairOf (X : X509 E) (key : PrivateKey E) : KeyFiles :=
  ⟨some (X.marshalPKIXPublicKey key.publicKey), some (X.marshalECPrivateKey key)⟩

/-- The curve is P-256 for the setting and for the files, and the unwrapping service
is not started before there is a key pair. -/
def Suits (X : X509 E) (cfg : Config) (w : State E) : Start E → Prop
  | .keyGen _ => selectCurve cfg.curveName = .p256 ∧ ∀ key, w.files = pairOf X key → key.curve = .p256
  | .keyUnwrap _ => ∃ key, w.files = pairOf X key ∧ key.curve = .p256

/-- The directory is empty, or the services that run have the key pair in it. -/
def Paired (X : X509 E) (w : State E) : Prop :=
  (w.files = ⟨none, none⟩ ∧ w.gen = none ∧ w.unwrap = none) ∨
    ∃ key, w.files = pairOf X key ∧
      (∀ g, w.gen = some g → key.curve = .p256 ∧ g.curve = .p256 ∧ g.encryptPublicKey = key.publicKey) ∧
      ∀ u, w.unwrap = some u → key.curve = .p256 ∧ u.decryptPrivKey = key

variable {w w' : State E}

theorem newKeyGenService_pair (path : cfg.keyPath ≠ []) (draw : Draw E) (key : PrivateKey E) :
    ∃ g, newKeyGenService X cfg draw.startup (pairOf X key) = (.ok g, pairOf X key) ∧
      g.curve = selectCurve cfg.curveName ∧ g.encryptPublicKey = key.publicKey := by
  have readable : ¬ (cfg.keyPath = [] ∨ draw.startup.unreadable = true) := by simp [path, Draw.startup]
  simp only [newKeyGenService, readKeyFile, if_neg readable, pairOf, bind_some, X.parse_public]
  exact ⟨_, rfl, rfl, rfl⟩

theorem newKeyGenService_empty (path : cfg.keyPath ≠ []) (draw : Draw E) :
    (∃ e, newKeyGenService X cfg draw.startup ⟨none, none⟩ = (.error e, ⟨none, none⟩)) ∨
      ∃ g key, newKeyGenService X cfg draw.startup ⟨none, none⟩ = (.ok g, pairOf X key) ∧
        key.curve = selectCurve cfg.curveName ∧ g.curve = selectCurve cfg.curveName ∧
        g.encryptPublicKey = key.publicKey := by
  have readable : ¬ (cfg.keyPath = [] ∨ draw.startup.unreadable = true) := by simp [path, Draw.startup]
  simp only [newKeyGenService, readKeyFile, if_neg readable, bind_none]
  cases made : drawKey draw.startup (selectCurve cfg.curveName) with
  | error e => exact .inl ⟨e, rfl⟩
  | ok key =>
    have curve : key.curve = selectCurve cfg.curveName := by
      unfold drawKey at made
      split at made
      · cases made
      · cases made
        rfl
    refine .inr ⟨⟨key.publicKey, X.marshalPKIXPublicKey key.publicKey, configKeyID cfg draw.startup,
      selectCurve cfg.curveName⟩, key, ?_, curve, rfl, rfl⟩
    simp only [saveGenerated, if_neg path, Draw.startup, pairOf]

theorem newKeyUnwrapService_pair (path : cfg.keyPath ≠ []) (draw : Draw E) (key : PrivateKey E) :
    ∃ u, newKeyUnwrapService X cfg draw.startup (pairOf X key) = (some (.ok u), pairOf X key) ∧
      u.decryptPrivKey = key := by
  have readable : ¬ (cfg.keyPath = [] ∨ draw.startup.unreadable = true) := by simp [path, Draw.startup]
  simp only [newKeyUnwrapService, readKeyFile, if_neg readable, pairOf, bind_some, X.parse_private]
  exact ⟨_, rfl, rfl⟩

theorem pairOf_injective {key key' : PrivateKey E} (same : pairOf X key = pairOf X key') : key = key' := by
  have privs := congrArg KeyFiles.priv same
  simp only [pairOf, some.injEq] at privs
  have parsed := X.parse_private key
  rw [privs, X.parse_private] at parsed
  exact (some.inj parsed).symm

/-- A start leaves a key pair alone. -/
theorem next_files (path : cfg.keyPath ≠ []) {key : PrivateKey E} (files : w.files = pairOf X key) {start : Start E}
    (stepped : next X cfg w start = some w') : w'.files = pairOf X key := by
  cases start with
  | keyGen draw =>
    obtain ⟨_, made, -⟩ := newKeyGenService_pair (X := X) path draw key
    simp only [next, files, made] at stepped
    cases stepped
    rfl
  | keyUnwrap draw =>
    obtain ⟨_, made, -⟩ := newKeyUnwrapService_pair (X := X) path draw key
    simp only [next, files, made] at stepped
    cases stepped
    rfl

theorem Paired.step (path : cfg.keyPath ≠ []) (paired : Paired X w) (quiet : w.panicked = false) {start : Start E}
    (suits : Suits X cfg w start) (stepped : next X cfg w start = some w') : Paired X w' ∧ w'.panicked = false := by
  cases start with
  | keyGen draw =>
    obtain ⟨setting, stored⟩ := suits
    rcases paired with ⟨empty, _, noUnwrap⟩ | ⟨key, files, gens, unwraps⟩
    · simp only [next, empty] at stepped
      rcases newKeyGenService_empty (X := X) path draw with ⟨_, failed⟩ | ⟨g, key, made, curve, genCurve, pair⟩
      · rw [failed] at stepped
        cases stepped
        exact ⟨.inl ⟨rfl, rfl, noUnwrap⟩, quiet⟩
      rw [made] at stepped
      cases stepped
      refine ⟨.inr ⟨key, rfl, ?_, ?_⟩, quiet⟩
      · rintro g' ⟨⟩
        exact ⟨curve.trans setting, genCurve.trans setting, pair⟩
      · rintro u isRunning
        cases noUnwrap.symm.trans isRunning
    · obtain ⟨g, made, genCurve, pair⟩ := newKeyGenService_pair (X := X) path draw key
      simp only [next, files, made] at stepped
      cases stepped
      refine ⟨.inr ⟨key, rfl, ?_, unwraps⟩, quiet⟩
      rintro g' ⟨⟩
      exact ⟨stored key files, genCurve.trans setting, pair⟩
  | keyUnwrap draw =>
    obtain ⟨stored, files, curve⟩ := suits
    rcases paired with ⟨empty, -, -⟩ | ⟨key, files', gens, -⟩
    · cases empty.symm.trans files
    obtain ⟨u, made, own⟩ := newKeyUnwrapService_pair (X := X) path draw key
    have same : key = stored := pairOf_injective (files'.symm.trans files)
    simp only [next, files', made] at stepped
    cases stepped
    refine ⟨.inr ⟨key, rfl, gens, ?_⟩, quiet⟩
    rintro _ ⟨⟩
    exact ⟨same ▸ curve, own⟩

theorem Paired.unwraps (hkdf : ∀ secret info, (A.hkdf secret info).length = 32) (paired : Paired X w)
    (quiet : w.panicked = false) : Unwraps C A w := by
  refine ⟨quiet, fun g u runs runs' draws d nonce dek drawn drewNonce size => ?_⟩
  rcases paired with ⟨-, noGen, -⟩ | ⟨_, -, gens, unwraps⟩
  · cases noGen.symm.trans runs
  · obtain ⟨curve, genCurve, pair⟩ := gens g runs
    obtain ⟨-, rfl⟩ := unwraps u runs'
    exact decrypt_encrypt hkdf genCurve curve pair draws drawn drewNonce size dek

end Startups

/-- In every order of starts that suits, no constructor panics and every wrapped key
is unwrapped. -/
theorem wrapped_keys_unwrap (E : Arithmetic) (X : X509 E) (C : Primitives) (A : Agreement)
    (hkdf : ∀ secret info, (A.hkdf secret info).length = 32) (cfg : Config) (path : cfg.keyPath ≠ [])
    (files : KeyFiles) (known : files = ⟨none, none⟩ ∨ ∃ key, files = pairOf X key) (starts : List (Start E))
    (met : Throughout (next X cfg) (Suits X cfg) (.initial E files) starts) :
    Always (next X cfg) (Unwraps C A) (.initial E files) starts := by
  have initially : Paired X (.initial E files) := by
    rcases known with rfl | ⟨key, rfl⟩
    · exact .inl ⟨rfl, rfl, rfl⟩
    · exact .inr ⟨key, rfl, by rintro _ ⟨⟩, by rintro _ ⟨⟩⟩
  have always : Always (next X cfg) (fun w => Paired X w ∧ w.panicked = false) (.initial E files) starts := by
    refine Throughout.always ?_ ⟨initially, rfl⟩ met
    rintro start - w w' stepped ⟨paired, quiet⟩ suits
    exact paired.step path quiet suits stepped
  exact always.mono fun w kept => kept.1.unwraps hkdf kept.2

/-! ### The generators

The curves at the scalar one, with the encodings of the generators as keys. -/

open Coordinator.Sample hiding vectors wrapKey

namespace Sample

def generator : Curve → Nat × Nat
  | .p256 => (0x6b17d1f2e12c4247f8bce6e563a440f277037d812deb33a0f4a13945d898c296,
      0x4fe342e2fe1a7f9b8ee7eb4a7c0f9e162bce33576b315ececbb6406837bf51f5)
  | .p384 => (0xaa87ca22be8b05378eb1c71ef320ad746e1d3b628ba79b9859f741e082542a385502f25dbf55296c3a545e3872760ab7,
      0x3617de4a96262c6f5d9e98bf9292dc29f8f41dbd289a147ce9da3113b5f0b8c00a60b1ce1d7e819d7a431d7c90ea0e5f)
  | .p521 => (
      0xc6858e06b70404e9cd9e3ecb662395b4429c648139053fb521f828af606b4d3dbaa14b5e77efe75928fe1dc127a2ffa8de3348b3c1856a429bf97e7e31c2e5bd66,
      0x11839296a789a3bc0045c8a5fb42c7d1bd998f54449579b446817afbd17273e662c97ee72995ef42640c550b9013fad0761353c7086a272c24088be94769fd16650)

theorem generator_small (c : Curve) : (generator c).1 < 256 ^ c.byteLen ∧ (generator c).2 < 256 ^ c.byteLen := by
  cases c <;> decide +kernel

def arithmetic : Arithmetic where
  onCurve c point := decide (point = generator c)
  scalar _ d := decide (d = 1)
  scalarBaseMult c _ := generator c
  scalarMult _ point _ := point
  onCurve_small c _ valid := of_decide_eq_true valid ▸ generator_small c
  base_onCurve c _ _ := decide_eq_true (Eq.refl (generator c))
  agreement _ _ _ _ _ := rfl

/-- `SubjectPublicKeyInfo` with the point. -/
def publicText : Curve → Bytes
  | .p256 => bigEndian 26 0x3059301306072a8648ce3d020106082a8648ce3d030107034200 ++ marshalPoint .p256 (generator .p256)
  | .p384 => bigEndian 23 0x3076301006072a8648ce3d020106052b81040022036200 ++ marshalPoint .p384 (generator .p384)
  | .p521 => bigEndian 25 0x30819b301006072a8648ce3d020106052b8104002303818600 ++
      marshalPoint .p521 (generator .p521)

/-- `ECPrivateKey` with the scalar one and the point. -/
def privateText : Curve → Bytes
  | .p256 => bigEndian 7 0x30770201010420 ++ bigEndian 32 1 ++
      bigEndian 17 0xa00a06082a8648ce3d030107a144034200 ++ marshalPoint .p256 (generator .p256)
  | .p384 => bigEndian 8 0x3081a40201010430 ++ bigEndian 48 1 ++
      bigEndian 14 0xa00706052b81040022a164036200 ++ marshalPoint .p384 (generator .p384)
  | .p521 => bigEndian 8 0x3081dc0201010442 ++ bigEndian 66 1 ++
      bigEndian 16 0xa00706052b81040023a1818903818600 ++ marshalPoint .p521 (generator .p521)

/-- The curve whose key has this text. -/
def curveOf (textOf : Curve → Bytes) (text : Bytes) : Option Curve :=
  if text = textOf .p256 then some .p256
  else if text = textOf .p384 then some .p384
  else if text = textOf .p521 then some .p521
  else none

theorem curveOf_publicText (c : Curve) : curveOf publicText (publicText c) = some c := by
  cases c <;> decide +kernel

theorem curveOf_privateText (c : Curve) : curveOf privateText (privateText c) = some c := by
  cases c <;> decide +kernel

theorem one_scalar (c : Curve) : arithmetic.scalar c 1 = true := rfl

def privateKey (c : Curve) : PrivateKey arithmetic := ⟨c, 1, one_scalar c⟩

theorem eq_publicKey (key : PublicKey arithmetic) : key = (privateKey key.curve).publicKey := by
  obtain ⟨c, point, valid⟩ := key
  obtain rfl : point = generator c := of_decide_eq_true valid
  rfl

theorem eq_privateKey (key : PrivateKey arithmetic) : key = privateKey key.curve := by
  obtain ⟨_, d, valid⟩ := key
  obtain rfl : d = 1 := of_decide_eq_true valid
  rfl

def x509 : X509 arithmetic where
  marshalPKIXPublicKey key := publicText key.curve
  parsePKIXPublicKey text := (curveOf publicText text).map fun c => .ecdsa (privateKey c).publicKey
  marshalECPrivateKey key := privateText key.curve
  parseECPrivateKey text := (curveOf privateText text).map privateKey
  parse_public key := by
    rw [curveOf_publicText, map_some, ← eq_publicKey]
  parse_private key := by
    rw [curveOf_privateText, map_some, ← eq_privateKey]

theorem draws_one (c : Curve) (d : Nat) (drawn : (Except.ok 1 : Except Bytes Nat) = .ok d) :
    arithmetic.scalar c d = true := by
  cases drawn
  rfl

def draw : Draw arithmetic := ⟨fun _ => .ok 1, draws_one, str "id"⟩

def config (curveName : String) : Config := ⟨str "keys/service", [], str curveName⟩

/-- The key generation service first, then both again. -/
def starts : List (Start arithmetic) := [.keyGen draw, .keyUnwrap draw, .keyGen draw]

def wrapKey : Bytes := bigEndian 32 0x8f1994c7db7b0f18175d7b53af313389437bfb66da23596260b1ae81aff332fb

/-- HKDF where the generator of P-256 is both the shared point and the ephemeral
one. -/
def agreement : Agreement where
  publicKey := curve.publicKey
  newPublicKey := curve.newPublicKey
  ecdh := curve.ecdh
  hkdf secret info :=
    if (secret, info) = (bigEndian 32 (generator .p256).1, marshalPoint .p256 (generator .p256)) then wrapKey
    else curve.hkdf secret info

/-- The data key of the coordinator's sample, wrapped and encrypted for its
client. -/
def vectors : Vectors where
  hmacs := []
  seals := [
    (wrapKey, wrapNonce, firstDEK,
      bigEndian 48 0xe21e02fe6279ed7e4380e4adb2c86a599db153e5c8b813a44b84806198791f54889db0ed55119a505eecc2b73497ad93),
    (sessionKey, sessionNonce, firstDEK,
      bigEndian 48 0xba3be220515fb8b469c77770aa8a1431dba3319fc65a102fc493b3e3d3b6c8aa759da66c6c2115d6eaa48b0e69d0224c)]
  hmacs_fit := by decide
  seals_fit := by decide

theorem hkdf_length (secret info : Bytes) : (agreement.hkdf secret info).length = 32 := by
  simp only [agreement, curve]
  split
  · rfl
  · split
    · rfl
    · split <;> rfl

def wrapDraws : WrapDraws arithmetic := ⟨fun _ => .ok 1, draws_one, .ok wrapNonce, str "key"⟩

end Sample

open Sample

/-- In an empty directory the unwrapping service panics. With the setting P-384 both
services come up, and what the one wraps the other one cannot read. -/
theorem services_do_not_understand_each_other :
    (∃ w, next Sample.x509 (config "P-256") (.initial _ ⟨none, none⟩) (.keyUnwrap draw) = some w ∧
        w.panicked = true) ∧
      ∃ w, [Start.keyGen draw, .keyUnwrap draw].foldlM (next Sample.x509 (config "P-384"))
          (.initial _ ⟨none, none⟩) = some w ∧ w.panicked = false ∧ ∀ C A, ¬ Unwraps C A w := by
  constructor
  · have ends : (next Sample.x509 (config "P-256") (.initial _ ⟨none, none⟩) (.keyUnwrap draw)).map
        (·.panicked) = some true := by decide +kernel
    exact map_eq_some_iff.mp ends
  · have ends : ([Start.keyGen draw, .keyUnwrap draw].foldlM (next Sample.x509 (config "P-384"))
        (.initial _ ⟨none, none⟩)).map (fun w => (w.panicked, w.gen.isSome, w.unwrap.map (·.curve))) =
          some (false, true, some .p384) := by decide +kernel
    obtain ⟨w, last, seen⟩ := map_eq_some_iff.mp ends
    simp only [Prod.mk.injEq] at seen
    obtain ⟨quiet, gens, unwraps⟩ := seen
    refine ⟨w, last, quiet, fun C A understood => ?_⟩
    obtain ⟨g, isGen⟩ := isSome_iff_exists.mp gens
    obtain ⟨u, isUnwrap, curve⟩ := map_eq_some_iff.mp unwraps
    obtain ⟨blob, -, unwrapped⟩ := understood.2 g u isGen isUnwrap wrapDraws 1 _ [] rfl rfl rfl
    have other : u.decryptPrivKey.curve ≠ .p256 := fun p256 => by cases curve.symm.trans p256
    obtain ⟨_, failed⟩ := decrypt_other (C := C) (A := A) other blob.encryptedKey
    cases failed.symm.trans unwrapped

/-- On P-256 the services come up in this order and understand each other. -/
theorem services_understand_each_other :
    Throughout (next Sample.x509 (config "P-256")) (Suits Sample.x509 (config "P-256"))
        (.initial _ ⟨none, none⟩) Sample.starts ∧
      Always (next Sample.x509 (config "P-256"))
        (Unwraps Sample.vectors.primitives Sample.agreement) (.initial _ ⟨none, none⟩)
        Sample.starts := by
  have path : (config "P-256").keyPath ≠ [] := by decide
  have setting : selectCurve (config "P-256").curveName = .p256 := by decide
  have made : (next Sample.x509 (config "P-256") (.initial _ ⟨none, none⟩) (.keyGen draw)).map (·.files) =
      some (pairOf Sample.x509 (privateKey .p256)) := by decide +kernel
  refine (fun met => ⟨met, wrapped_keys_unwrap Sample.arithmetic Sample.x509 Sample.vectors.primitives Sample.agreement
    hkdf_length (config "P-256") path ⟨none, none⟩ (Or.inl rfl) Sample.starts met⟩) ?_
  intro w first
  refine ⟨⟨setting, by rintro key ⟨⟩⟩, fun w' second => ?_⟩
  rw [first] at made
  have files := some.inj made
  refine ⟨⟨_, files, rfl⟩, fun w'' _ => ⟨⟨setting, fun key files'' => ?_⟩, trivial⟩⟩
  have files' := next_files path files second
  rw [← pairOf_injective (files'.symm.trans files'')]
  rfl

end CipherLake.KeyServices

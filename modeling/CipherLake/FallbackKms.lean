import CipherLake.Lib.Runs
import CipherLake.Lib.Table

/-! `FallbackKMS`: a key management client in front of another one, which it takes
to be unavailable from its first error on until a health check succeeds. Plaintext
keys are cached by their ciphertext for that time.

Each call comes with the primary client as it is at that moment, so that what the
primary alone would have answered is known also where it is not asked. -/
namespace CipherLake.FallbackKms
open Lib Lib.Runs

structure KMSClient where
  generateDataKey (keyID : Bytes) (length : Int) : Except Bytes (Bytes × Bytes)
  decryptDataKey (keyID encrypted : Bytes) : Except Bytes Bytes
  getPublicKey (keyID : Bytes) : Except Bytes Bytes

structure FallbackKMS where
  mode : Bytes
  available : Bool
  cachedKeys : Table Bytes Bytes
  cacheOrder : List Bytes
  maxCache : Nat

def newFallbackKMS (mode : Bytes) : FallbackKMS :=
  ⟨if mode = [] then str "reject_writes" else mode, true, Table.empty, [], 1000⟩

variable (s : State) {α : Type} (f : FallbackKMS)

def markUnavailable : FallbackKMS := { f with available := false }

def markAvailable : FallbackKMS := { f with available := true }

/-- The loop that makes room, oldest keys first. -/
def evict (maxCache : Nat) : Table Bytes Bytes → List Bytes → Table Bytes Bytes × List Bytes
  | keys, [] => (keys, [])
  | keys, oldest :: order =>
    if keys.entries.length ≥ maxCache then evict maxCache (keys.delete oldest) order else (keys, oldest :: order)

def cacheKey (encrypted plaintext : Bytes) : FallbackKMS :=
  if (f.cachedKeys.get encrypted).isSome then { f with cachedKeys := f.cachedKeys.put encrypted plaintext }
  else
    let (keys, order) := evict f.maxCache f.cachedKeys f.cacheOrder
    { f with cachedKeys := keys.put encrypted plaintext, cacheOrder := order ++ [encrypted] }

def lookupCachedKey (encrypted : Bytes) : Option Bytes := f.cachedKeys.get encrypted

/-- A call that is passed on, unless the client is unavailable. -/
def passOn {α : Type} (f : FallbackKMS) (answer : Except Bytes α) (task operation : String)
    (keep : α → FallbackKMS) : Except Bytes α × FallbackKMS :=
  if f.available = false then
    (.error (str "kms/fallback: KMS unavailable, cannot " ++ str task ++ str " (mode: " ++ f.mode ++ str ")"), f)
  else
    match answer with
    | .error e => (.error (str "kms/fallback: " ++ str operation ++ str " failed: " ++ e), markUnavailable f)
    | .ok value => (.ok value, keep value)

def generateDataKey (primary : KMSClient) (keyID : Bytes) (length : Int) :
    Except Bytes (Bytes × Bytes) × FallbackKMS :=
  passOn f (primary.generateDataKey keyID length) "generate new data key" "GenerateDataKey" fun keys =>
    cacheKey f keys.2 keys.1

def getPublicKey (primary : KMSClient) (keyID : Bytes) : Except Bytes Bytes × FallbackKMS :=
  passOn f (primary.getPublicKey keyID) "get public key" "GetPublicKey" fun _ => f

/-- The end of `DecryptDataKey`, for a client that is unavailable or has refused. -/
def decryptCached (encrypted message : Bytes) : Except Bytes Bytes × FallbackKMS :=
  match lookupCachedKey f encrypted with
  | some plaintext => (.ok plaintext, f)
  | none => (.error message, f)

def decryptDataKey (primary : KMSClient) (keyID encrypted : Bytes) : Except Bytes Bytes × FallbackKMS :=
  if f.available = false then
    decryptCached f encrypted (str "kms/fallback: KMS unavailable and no cached key found (mode: " ++ f.mode ++ str ")")
  else
    match primary.decryptDataKey keyID encrypted with
    | .ok plaintext => (.ok plaintext, cacheKey f encrypted plaintext)
    | .error e =>
      decryptCached (markUnavailable f) encrypted
        (str "kms/fallback: DecryptDataKey failed and no cached key available: " ++ e)

def checkHealth (primary : KMSClient) : FallbackKMS :=
  if f.available then f
  else
    match primary.getPublicKey [] with
    | .ok _ => markAvailable f
    | .error _ => f

/-! ### Calls and runs -/

inductive Call where
  | generateDataKey (keyID : Bytes) (length : Int)
  | decryptDataKey (keyID encrypted : Bytes)
  | getPublicKey (keyID : Bytes)
  deriving DecidableEq, Repr

inductive Result where
  | dataKey (plaintext encrypted : Bytes)
  | plaintext (key : Bytes)
  | publicKey (pub : Bytes)
  deriving DecidableEq, Repr

def KMSClient.answer (primary : KMSClient) : Call → Except Bytes Result
  | .generateDataKey keyID length => (primary.generateDataKey keyID length).map fun keys => .dataKey keys.1 keys.2
  | .decryptDataKey keyID encrypted => (primary.decryptDataKey keyID encrypted).map .plaintext
  | .getPublicKey keyID => (primary.getPublicKey keyID).map .publicKey

def FallbackKMS.answer (primary : KMSClient) : Call → Except Bytes Result × FallbackKMS
  | .generateDataKey keyID length =>
    let (keys, f) := generateDataKey f primary keyID length
    (keys.map fun keys => .dataKey keys.1 keys.2, f)
  | .decryptDataKey keyID encrypted =>
    let (key, f) := decryptDataKey f primary keyID encrypted
    (key.map .plaintext, f)
  | .getPublicKey keyID =>
    let (pub, f) := getPublicKey f primary keyID
    (pub.map .publicKey, f)

/-- A call, what the primary alone answers to it, and what it was answered. -/
structure Answer where
  call : Call
  (due given : Except Bytes Result)

structure State where
  kms : FallbackKMS
  answers : List Answer

/-- A call, or a tick of the health check. -/
inductive Event where
  | call (primary : KMSClient) (call : Call)
  | tick (primary : KMSClient)

def State.initial (mode : Bytes) : State := ⟨newFallbackKMS mode, []⟩

def next : Event → Option State
  | .call primary call =>
    let (given, kms) := s.kms.answer primary call
    some ⟨kms, ⟨call, primary.answer call, given⟩ :: s.answers⟩
  | .tick primary => some { s with kms := checkHealth s.kms primary }

/-- Every call was answered with the primary's keys, or with an error where the
primary has one. -/
def Transparent : Prop := ∀ a ∈ s.answers, a.given.toOption = a.due.toOption

/-- A decryption goes as the primary's: it is passed on, or the primary refuses it
too. Where a plaintext is cached, it is the primary's, or the call is passed on and
not refused. -/
def DecryptPasses (available : Bool) (cached : Option Bytes) (due : Except Bytes Bytes) : Prop :=
  match cached with
  | none => available = true ∨ due.isOk = false
  | some key => due.toOption = some key ∨ available = true ∧ due.isOk = true

/-- A call goes as the primary's. -/
def Passes (primary : KMSClient) : Call → Prop
  | .generateDataKey keyID length => f.available = true ∨ (primary.generateDataKey keyID length).isOk = false
  | .decryptDataKey keyID encrypted =>
    DecryptPasses f.available (lookupCachedKey f encrypted) (primary.decryptDataKey keyID encrypted)
  | .getPublicKey keyID => f.available = true ∨ (primary.getPublicKey keyID).isOk = false

def EventPasses : Event → Prop
  | .call primary call => Passes s.kms primary call
  | .tick _ => True

theorem toOption_map {β : Type} (g : α → β) (answer : Except Bytes α) :
    (answer.map g).toOption = answer.toOption.map g := by
  cases answer <;> rfl

theorem toOption_eq_none (answer : Except Bytes α) : answer.toOption = none ↔ answer.isOk = false := by
  cases answer with
  | error e => exact iff_of_true rfl rfl
  | ok value => exact iff_of_false (by rintro ⟨⟩) (by rintro ⟨⟩)

theorem passOn_agrees (answer : Except Bytes α) (task operation : String) (keep : α → FallbackKMS) :
    (passOn f answer task operation keep).1.toOption = answer.toOption ↔ f.available = true ∨ answer.isOk = false := by
  unfold passOn
  cases f.available with
  | false =>
    simp only [if_true, Bool.false_eq_true, false_or, ← toOption_eq_none]
    exact eq_comm
  | true =>
    refine iff_of_true ?_ (.inl rfl)
    rw [if_neg (by decide)]
    cases answer <;> rfl

theorem decryptDataKey_agrees (primary : KMSClient) (keyID encrypted : Bytes) :
    (decryptDataKey f primary keyID encrypted).1.toOption = (primary.decryptDataKey keyID encrypted).toOption ↔
      DecryptPasses f.available (lookupCachedKey f encrypted) (primary.decryptDataKey keyID encrypted) := by
  have kept : lookupCachedKey (markUnavailable f) encrypted = lookupCachedKey f encrypted := rfl
  unfold decryptDataKey decryptCached DecryptPasses
  rw [kept]
  cases lookupCachedKey f encrypted with
  | none =>
    cases f.available with
    | false =>
      simp only [if_true, Bool.false_eq_true, false_or, ← toOption_eq_none]
      exact eq_comm
    | true =>
      refine iff_of_true ?_ (.inl rfl)
      rw [if_neg (by decide)]
      cases primary.decryptDataKey keyID encrypted <;> rfl
  | some cached =>
    cases f.available with
    | false =>
      simp only [if_true, Bool.false_eq_true, false_and, or_false]
      exact eq_comm
    | true =>
      rw [if_neg (by decide)]
      cases primary.decryptDataKey keyID encrypted with
      | ok plaintext => exact iff_of_true rfl (.inr ⟨rfl, rfl⟩)
      | error e => exact iff_of_false (by rintro ⟨⟩) (by rintro (⟨⟨⟩⟩ | ⟨-, ⟨⟩⟩))

theorem answer_agrees (primary : KMSClient) (call : Call) :
    (f.answer primary call).1.toOption = (primary.answer call).toOption ↔ Passes f primary call := by
  cases call with
  | generateDataKey keyID length =>
    simp only [FallbackKMS.answer, KMSClient.answer, toOption_map]
    rw [Option.map_inj_right fun a b same => Prod.ext (Result.dataKey.inj same).1 (Result.dataKey.inj same).2]
    exact passOn_agrees f _ _ _ _
  | decryptDataKey keyID encrypted =>
    simp only [FallbackKMS.answer, KMSClient.answer, toOption_map]
    rw [Option.map_inj_right fun a b same => Result.plaintext.inj same]
    exact decryptDataKey_agrees f primary keyID encrypted
  | getPublicKey keyID =>
    simp only [FallbackKMS.answer, KMSClient.answer, toOption_map]
    rw [Option.map_inj_right fun a b same => Result.publicKey.inj same]
    exact passOn_agrees f _ _ _ _

theorem transparent_step {s s' : State} {event : Event} (stepped : next s event = some s')
    (transparent : Transparent s) : Transparent s' ↔ EventPasses s event := by
  cases event with
  | call primary call =>
    have reached : s' = ⟨(s.kms.answer primary call).2,
        ⟨call, primary.answer call, (s.kms.answer primary call).1⟩ :: s.answers⟩ := (Option.some.inj stepped).symm
    rw [reached, EventPasses, ← answer_agrees, Transparent, List.forall_mem_cons]
    exact ⟨fun both => both.1, fun agrees => ⟨agrees, transparent⟩⟩
  | tick primary =>
    cases stepped
    exact iff_of_true transparent trivial

/-- Over every sequence of calls and health checks, every call is answered as the
primary alone would answer it exactly if every call passes. -/
theorem answers_as_primary_iff (mode : Bytes) (events : List Event) :
    Always next Transparent (.initial mode) events ↔ Throughout next EventPasses (.initial mode) events := by
  refine always_iff_throughout (fun _ => True) (fun _ _ _ _ _ => trivial) ?_ trivial (by rintro _ ⟨⟩)
  exact fun s event s' stepped _ transparent => transparent_step stepped transparent

namespace Sample

/-- A client with one key, which knows one ciphertext. -/
def primary : KMSClient where
  generateDataKey _ _ := .ok ([1, 2, 3], [7, 7, 7])
  decryptDataKey keyID encrypted :=
    if keyID = str "key" ∧ encrypted = [7, 7, 7] then .ok [1, 2, 3]
    else .error (str "kms/local: cipher: message authentication failed")
  getPublicKey _ := .ok [4]

/-- A data key, the same under another key id, which the primary refuses, and one more
data key. -/
def calls : List Event :=
  [.call primary (.generateDataKey (str "key") 3), .call primary (.decryptDataKey (str "other") [7, 7, 7]),
    .call primary (.generateDataKey (str "key") 3)]

end Sample

/-- A decryption that the primary refuses is answered with a plaintext, and after it
a data key is refused that the primary gives. -/
theorem refused_call_disturbs_others :
    (Sample.calls.foldlM next (.initial [])).map (fun s => s.answers.map fun a => (a.given.toOption, a.due.toOption)) =
      some [(none, some (.dataKey [1, 2, 3] [7, 7, 7])), (some (.plaintext [1, 2, 3]), none),
        (some (.dataKey [1, 2, 3] [7, 7, 7]), some (.dataKey [1, 2, 3] [7, 7, 7]))] ∧
      ¬ Always next Transparent (.initial []) Sample.calls := by
  refine seen_not_always _ (by decide +kernel) ?_
  intro s seen transparent
  obtain ⟨a, rest, answers, seen, -⟩ := List.map_eq_cons_iff.mp seen
  rw [transparent a (answers ▸ List.mem_cons_self)] at seen
  obtain ⟨given, due⟩ := Prod.mk.inj seen
  cases given.symm.trans due

end CipherLake.FallbackKms

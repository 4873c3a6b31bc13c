import CipherLake.Lib.ErasureCode
import CipherLake.StreamCipher

/-! The erasure-coded backend of `storage/erasure.go`: an object is framed with
its length, split into shards, extended by parity shards and written to one
backend each. Which backends fail, and what a failed write leaves behind, is
given with every call. -/
namespace CipherLake.ErasureBackend
open Lib StreamCipher

/-! ### The encoder -/

/-- A Reed-Solomon encoder: the code and the size of a shard for data of a
given length. -/
structure Encoder (k m : Nat) extends ErasureCode UInt8 k m where
  perShard : Nat → Nat
  fits : ∀ n, n ≤ k * perShard n

variable {k m : Nat}

def errShortData : Bytes := str "not enough data to fill the number of requested shards"
def errShardNoData : Bytes := str "no shard data"
def errShardSize : Bytes := str "shard sizes do not match"
def errTooFewShards : Bytes := str "too few shards given"

variable (E : Encoder k m)

/-- The data with zero bytes behind it, cut into `k` shards. -/
def Encoder.split (data : Bytes) : Except Bytes (Fin k → Bytes) :=
  let perShard := E.perShard data.length
  let padded := data ++ List.replicate (k * perShard - data.length) 0
  if data = [] then .error errShortData
  else .ok fun i => (padded.drop (i * perShard)).take perShard

/-- The length of the first shard that is there. -/
def shardSize (shards : Fin n → Bytes) : Nat := (((List.ofFn shards).find? (· ≠ [])).getD []).length

def checkShards (nilok : Bool) (shards : Fin n → Bytes) : Except Bytes Unit :=
  if shardSize shards = 0 then .error errShardNoData
  else if ∃ i, (shards i).length ≠ shardSize shards ∧ ¬ (nilok ∧ shards i = []) then .error errShardSize
  else .ok ()

def Encoder.encode (data : Fin k → Bytes) : Except Bytes (Fin (k + m) → Bytes) :=
  match checkShards false data with
  | .error e => .error e
  | .ok () => .ok (E.codeword data)

def Encoder.reconstruct (shards : Fin (k + m) → Bytes) : Except Bytes (Fin (k + m) → Bytes) :=
  match checkShards true shards with
  | .error e => .error e
  | .ok () =>
    if (present shards).card = k + m then .ok shards
    else if (present shards).card < k then .error errTooFewShards
    else .ok (E.rebuild shards)

/-- Whether the parity is right, with the error that kept it from being looked
at. -/
def Encoder.verify (shards : Fin (k + m) → Bytes) : Bool × Option Bytes :=
  match checkShards false shards with
  | .error e => (false, some e)
  | .ok () => (decide (E.Verified shards), none)

/-- The first `outSize` bytes of the data shards. -/
def Encoder.join (_ : Encoder k m) (shards : Fin (k + m) → Bytes) (outSize : Nat) : Except Bytes Bytes :=
  let data := (List.ofFn fun i : Fin k => shards (Fin.castAdd m i)).flatten
  if data.length < outSize then .error errShortData else .ok (data.take outSize)

/-! ### The backend -/

structure ErasureCodedBackend (k m : Nat) where
  enc : Encoder k m
  shardMapping : Bytes → Nat → Bytes

def defaultShardMapping (path : Bytes) (shardIdx : Nat) : Bytes := path ++ str ".shard." ++ decimal shardIdx

structure ErasureConfig where
  (dataShards parityShards : Int)
  backends : Nat
  shardMapping : Option (Bytes → Nat → Bytes)

def ErasureConfig.dataCount (cfg : ErasureConfig) : Nat := if cfg.dataShards ≤ 0 then 4 else cfg.dataShards.toNat
def ErasureConfig.parityCount (cfg : ErasureConfig) : Nat := if cfg.parityShards ≤ 0 then 2 else cfg.parityShards.toNat

def newErasureCodedBackend (new : (k m : Nat) → Except Bytes (Encoder k m)) (cfg : ErasureConfig) :
    Except Bytes (ErasureCodedBackend cfg.dataCount cfg.parityCount) :=
  if cfg.backends < cfg.dataCount + cfg.parityCount then
    .error (str "erasure coding requires at least " ++ decimal (cfg.dataCount + cfg.parityCount) ++ str " backends, got " ++
      decimal cfg.backends)
  else
    match new cfg.dataCount cfg.parityCount with
    | .error err => .error (str "failed to create Reed-Solomon encoder: " ++ err)
    | .ok enc => .ok ⟨enc, cfg.shardMapping.getD defaultShardMapping⟩

/-- What the backends hold, each under its shard paths. -/
abbrev Stored (k m : Nat) := Fin (k + m) → Bytes → Option Bytes

/-- What a failed write leaves under the shard path: what was there, nothing,
or the new shard after all. -/
inductive Remains where
  | kept
  | lost
  | written
  deriving DecidableEq, Repr

/-- The write of one shard: made, or failed with an error. -/
abbrev Outcome := Option (Bytes × Remains)

def Outcome.left (outcome : Outcome) (before : Option Bytes) (shard : Bytes) : Option Bytes :=
  match outcome with
  | none => some shard
  | some (_, .kept) => before
  | some (_, .lost) => none
  | some (_, .written) => some shard

variable (e : ErasureCodedBackend k m) (stored : Stored k m)

def splitAndEncode (data : Bytes) : Except Bytes (Fin (k + m) → Bytes) :=
  match e.enc.split data with
  | .error err => .error (str "failed to split data into shards: " ++ err)
  | .ok shards =>
    match e.enc.encode shards with
    | .error err => .error (str "failed to compute parity shards: " ++ err)
    | .ok shards => .ok shards

/-- The length of the data in front of it. -/
def prefixed (data : Bytes) : Bytes := putUint64 (UInt64.ofNat data.length) ++ data

/-- `putShards`. The errors are listed by shard; the source has them in the
order in which the writes end. -/
def putShards (path data : Bytes) (outcomes : Fin (k + m) → Outcome) : Except Bytes Unit × Stored k m :=
  match splitAndEncode e (prefixed data) with
  | .error err => (.error err, stored)
  | .ok shards =>
    let after : Stored k m := fun i shardPath =>
      if shardPath = e.shardMapping path i then (outcomes i).left (stored i shardPath) (shards i)
      else stored i shardPath
    let errs := (List.finRange (k + m)).filterMap fun i => (outcomes i).map fun failed =>
      str "failed to put shard " ++ decimal i ++ str ": " ++ failed.1
    if m < errs.length then
      (.error (str "too many shard write failures (" ++ decimal errs.length ++ str "): " ++ errs.headD []), after)
    else (.ok (), after)

/-- `Put`: all of the input is read before anything is written. -/
def put (path : Bytes) (input : Except Bytes Bytes)
    (outcomes : Fin (k + m) → Outcome) : Except Bytes Unit × Stored k m :=
  match input with
  | .error err => (.error (str "failed to read data for erasure encoding: " ++ err), stored)
  | .ok data => putShards e stored path data outcomes

/-- A rename of one shard that failed: what it left under the new path, where a
copy may have been made, and whether the shard is still under the old one. -/
structure RenameFault where
  err : Bytes
  remains : Remains
  sourceKept : Bool
  deriving DecidableEq, Repr

/-- The error of one rename; a backend that has no such shard says so. -/
def renameError (missing : Bytes) (fault : Option RenameFault) (source : Option Bytes) : Option Bytes :=
  match fault with
  | some failed => some failed.err
  | none => if source = none then some missing else none

def renamedTo (fault : Option RenameFault) (source target : Option Bytes) : Option Bytes :=
  match fault with
  | some ⟨_, .kept, _⟩ => target
  | some ⟨_, .lost, _⟩ => none
  | some ⟨_, .written, _⟩ => source.or target
  | none => source.or target

def renamedFrom (fault : Option RenameFault) (source : Option Bytes) : Option Bytes :=
  match fault with
  | some failed => if failed.sourceKept then source else none
  | none => none

/-- `AtomicRename`: the shards are renamed one by one, and up to `m` failures
pass. A rename onto itself leaves the shard. -/
def atomicRename (oldPath newPath missing : Bytes)
    (faults : Fin (k + m) → Option RenameFault) : Except Bytes Unit × Stored k m :=
  let after : Stored k m := fun i shardPath =>
    if shardPath = e.shardMapping newPath i then
      renamedTo (faults i) (stored i (e.shardMapping oldPath i)) (stored i shardPath)
    else if shardPath = e.shardMapping oldPath i then renamedFrom (faults i) (stored i shardPath)
    else stored i shardPath
  let errs := (List.finRange (k + m)).filterMap fun i =>
    (renameError missing (faults i) (stored i (e.shardMapping oldPath i))).map fun err =>
      str "failed to rename shard " ++ decimal i ++ str ": " ++ err
  if m < errs.length then
    (.error (str "too many shard rename failures (" ++ decimal errs.length ++ str "): " ++ errs.headD []), after)
  else (.ok (), after)

/-- What the backends answer to the reads of a path's shards, with the error of
those that fail. -/
def answers (path : Bytes) (failing : Fin (k + m) → Option Bytes) (i : Fin (k + m)) : Except Bytes Bytes :=
  match failing i with
  | some err => .error err
  | none =>
    match stored i (e.shardMapping path i) with
    | some shard => .ok shard
    | none => .error (str "object not found")

def answered (answers : Fin n → Except Bytes Bytes) : Finset (Fin n) :=
  Finset.univ.filter fun i => (answers i).isOk

/-- The shards that were read, a missing one empty. -/
def received (answers : Fin n → Except Bytes Bytes) (i : Fin n) : Bytes :=
  match answers i with
  | .ok shard => shard
  | .error _ => []

/-- The data that a joined object frames. -/
def unframe (joined : Bytes) : Except Bytes Bytes :=
  if joined.length < 8 then .error (str "erasure-coded data too short to contain length prefix")
  else
    let originalLen := (uint64 (joined.take 8)).toNat
    if joined.length - 8 < originalLen then
      .error (str "erasure-coded data length prefix " ++ decimal originalLen ++ str " exceeds available data " ++
        decimal (joined.length - 8))
    else .ok ((joined.drop 8).take originalLen)

/-- What `getShards` makes of a complete set of shards. -/
def opened (shards : Fin (k + m) → Bytes) : Except Bytes Bytes :=
  match E.verify shards with
  | (false, err) => .error (str "erasure-coded data verification failed: " ++ err.getD (str "<nil>"))
  | (true, _) =>
    match E.join shards (((List.ofFn shards).headD []).length * k) with
    | .error e => .error (str "failed to join erasure shards: " ++ e)
    | .ok joined => unframe joined

/-- What `getShards` does with the answers of the backends. -/
def decode (answers : Fin (k + m) → Except Bytes Bytes) : Except Bytes Bytes :=
  let available := (answered answers).card
  if available < k then
    .error (str "not enough shards available (" ++ decimal available ++ str "/" ++ decimal k ++
      str ") to reconstruct object")
  else
    let rebuilt := if available < k + m then E.reconstruct (received answers) else .ok (received answers)
    match rebuilt with
    | .error e => .error (str "failed to reconstruct erasure-coded data: " ++ e)
    | .ok shards => opened E shards

def getShards (path : Bytes) (failing : Fin (k + m) → Option Bytes) : Except Bytes Bytes :=
  decode e.enc (answers e stored path failing)

end CipherLake.ErasureBackend

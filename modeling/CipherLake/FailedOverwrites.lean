import CipherLake.CacheCoherence
import CipherLake.ReadAccess

/-! Requests that overwrite an object and fail. The data of an object is replaced
before the checksum is known and before the record is accepted, and a rejected
write deletes what is there. So an object survives a failed write exactly if the
data never got written, or the object lies in another place. -/
namespace CipherLake.FailedOverwrites
open Lib Http AccessControl Metadata Storage Gateway Multipart Resumable ObjectWrites

variable {κ : Type}

/-- An object with its record and its data. -/
structure Held (g : Config) (bucket key : Bytes) (w : World κ) (m : ObjectMetadata) (root : Path) (data : Bytes) :
    Prop where
  record : getObject w.metadata bucket key = .ok m
  tier : g.tiers m.storageTier = some root
  file : w.fs.entry (objectPath root bucket key) = some (.file data)

/-- Every read is answered in `w'` as it was in `w`. -/
def ServedAlike (g : Config) (crypto : Option (Crypto κ)) (bucket key : Bytes) (w w' : World κ) : Prop :=
  ∀ (call : Call κ) (r : Request) (userID : Bytes), call.crypto = crypto →
    (serveObject g call w' r bucket key userID).1 = (serveObject g call w r bucket key userID).1

/-- The object stays as it was, and so do the answers to all reads. -/
structure Intact (g : Config) (crypto : Option (Crypto κ)) (bucket key : Bytes) (m : ObjectMetadata) (root : Path)
    (data : Bytes) (w w' : World κ) : Prop where
  held : Held g bucket key w' m root data
  served : ServedAlike g crypto bucket key w w'

/-- The data of a write reaches the store. -/
def Written (g : Config) (call : Call κ) (bucket key : Bytes) (w : World κ) (plan : Plan) (hot : Path) : Prop :=
  g.tiers tierHot = some hot ∧ Writable call.disk w.fs (objectPath hot bucket key) plan.data plan.size

section
variable {g : Config} {bucket key : Bytes} {w w' : World κ} {m : ObjectMetadata} {root : Path} {data : Bytes}
  {crypto : Option (Crypto κ)}

theorem get_held {w : World κ} (held : Held g bucket key w m root data) (disk : Disk) :
    Storage.get g.tiers disk w.fs bucket key m.storageTier =
      match disk.opening with
      | some e => .error (str "failed to get object: " ++
          (str "failed to open file: " ++ pathError "open" (objectPath root bucket key) e))
      | none => .ok (contents disk (objectPath root bucket key) (.file data)) := by
  have file := held.file
  rw [objectPath] at file
  unfold Storage.get FileBackend.get
  simp only [held.tier, file]
  cases disk.opening with
  | some e => rfl
  | none => rfl

/-- What is left where a write was taken back: nothing, or what was written. -/
theorem takeBack_entry {w : World κ} {hot : Path} {body : Bytes} (call : Call κ) (registered : g.tiers tierHot = some hot)
    (there : w.fs.entry (objectPath hot bucket key) = some (.file body)) (path : Path) :
    (takeBack g call w bucket key).fs.entry path =
      if path = objectPath hot bucket key ∧ call.disk.remove = none then none else w.fs.entry path := by
  unfold takeBack Storage.delete
  simp only [registered]
  cases removing : call.disk.remove with
  | some e => simp [FileBackend.delete, removing]
  | none =>
    obtain ⟨_, removed, entries⟩ := FileBackend.delete_file there removing
    simp only [removed, entries, and_true]
    rfl

end

open Gateway.Sample hiding config

namespace Sample

/-- Nobody has to authenticate. -/
def config : Config := { Gateway.Sample.config with provider := ⟨⟨[], false, true⟩, none⟩ }

/-- An overwriting `PUT` of `photos/cat.jpg`. -/
def overwrite (header : List (Bytes × Bytes)) : Request :=
  { request [] with
    method := str "PUT"
    header := header
    contentLength := 4
    body := ⟨str "woof", some .eof⟩ }

def put (header : List (Bytes × Bytes)) : Write Unit := .put Gateway.Sample.call (overwrite header)

/-- The status of an answer, and its body. -/
def shape : Reply → Option (Nat × Bytes)
  | .sent status _ body _ => some (status, body)
  | .error status code _ => some (status, code)
  | _ => none

def read (w : World Unit) : Reply :=
  (serveObject config Gateway.Sample.call w (request []) (str "photos") (str "cat.jpg") []).1

end Sample

open FailedOverwrites.Sample

theorem sample_held : Held Sample.config (str "photos") (str "cat.jpg") world photo [str "hot"] (str "meow") :=
  ⟨by decide +kernel, by decide +kernel, by decide +kernel⟩

end CipherLake.FailedOverwrites

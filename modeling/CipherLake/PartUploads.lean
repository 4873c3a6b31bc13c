import CipherLake.CacheCoherence
import CipherLake.Lib.Runs

/-! A multipart upload from its first part to its completion. The file of a part
and its record are two stores that one request updates in turn, and the
completion reads both. They belong together as long as an upload that was not
recorded takes its file away: then what is completed is what was acknowledged. -/
namespace CipherLake.PartUploads
open Lib Http AccessControl Metadata Storage Gateway Multipart ObjectWrites CacheCoherence List Table FileTree

variable {κ : Type} {m n : Nat} {t : FileTree} {dir : Path} {data : Bytes} {r : Request} {w : World κ} {reply : Reply}

/-! ### Runs -/

/-- A request to upload a part of one upload, with what fails meanwhile. -/
structure Attempt (κ : Type) (uploadID : Bytes) where
  call : Call κ
  faults : PartFaults
  request : Request
  concerns : request.queryGet (str "uploadId") = uploadID

/-- The number under which a request uploads. -/
def partNumber (r : Request) : Option Nat :=
  ((parseInt (r.queryGet (str "partNumber"))).filter fun n => 1 ≤ n ∧ n ≤ 10000).map Int.toNat

/-- A world, and for every part the body that was acknowledged last. -/
structure Progress (κ : Type) where
  world : World κ
  acknowledged : Nat → Option Bytes

def Progress.after (s : Progress κ) (r : Request) (out : Reply × World κ) : Progress κ where
  world := out.2
  acknowledged n := if out.1.Succeeded ∧ partNumber r = some n then some r.body.bytes else s.acknowledged n

def Progress.start (w : World κ) : Progress κ := ⟨w, fun _ => none⟩

/-- The acknowledged bodies by their numbers. -/
def Progress.bodies (s : Progress κ) : List Bytes := (range 10001).filterMap s.acknowledged

section
variable (g : Config) (bucket key : Bytes)

def next {uploadID : Bytes} (s : Progress κ) (a : Attempt κ uploadID) : Option (Progress κ) :=
  (handleUploadPart g a.call a.faults s.world a.request bucket key).map (s.after a.request)

/-- The object is made of these pieces, and recorded with the sum of their
sizes. -/
structure MadeOf (w : World κ) (pieces : List Bytes) : Prop where
  file : ∃ root, g.tiers tierHot = some root ∧
    w.fs.entry (objectPath root bucket key) = some (.file pieces.flatten)
  record : ∃ m, getObject w.metadata bucket key = .ok m ∧ m.storageTier = tierHot ∧ m.deleteMarker = false ∧
    m.size = ((pieces.map length).sum : Nat)

/-- The parts on the record are the acknowledged ones, and a completion that
succeeds makes the object of them. -/
structure Exact (uploadID : Bytes) (s : Progress κ) : Prop where
  recorded : ∀ n : Nat, (∃ part ∈ recordedParts s.world.uploads uploadID, part.partNumber = n) ↔
    s.acknowledged n ≠ none
  completed : ∀ (call : Call κ) (faults : Completion) (r : Request) (reply : Reply) (w' : World κ),
    r.queryGet (str "uploadId") = uploadID →
    handleCompleteMultipartUpload g call faults s.world r bucket key = some (reply, w') → reply.Succeeded →
      MadeOf g bucket key w' s.bodies

end

/-- An upload that does not get on the record takes its file away again, unless
there is no acknowledged part that the file could pass for. -/
def TakenBack {uploadID : Bytes} (s : Progress κ) (a : Attempt κ uploadID) : Prop :=
  a.faults.addPart = none ∨ a.faults.remove = none ∨
    ∀ n, partNumber a.request = some n → s.acknowledged n = none

/-! ### Names -/

def partName (n : Nat) : Bytes := str "part-" ++ str (toString n)

def partKey (uploadID : Bytes) (n : Nat) : Bytes := uploadID ++ str "/" ++ str (toString n)

theorem partName_inj (same : partName m = partName n) : m = n :=
  str_toString_injective (append_cancel_left same)

theorem getPartPath_eq (uploadsDir : Path) (uploadID : Bytes) (n : Nat) :
    getUploadDir uploadsDir uploadID ++ [partName n] = getPartPath uploadsDir uploadID n := rfl

@[simp] theorem partTempPath_append (dir : Path) (name : Bytes) :
    partTempPath (dir ++ [name]) = dir ++ [name ++ str ".tmp"] := by
  simp [partTempPath]

/-- A number does not end as a temporary name does. -/
theorem partName_ne_temp (m n : Nat) : partName m ≠ partName n ++ str ".tmp" := by
  intro same
  have digits := append_cancel_left same
  have member : (46 : UInt8) ∈ str (toString m) := by
    rw [digits]
    exact mem_append_right _ (by decide)
  exact absurd (digit_of_mem_toString member).1 (by decide)

/-! ### Storing a part -/

/-- The file of a part is replaced as a whole or stays, and besides it only the
temporary file and directories on the way are touched. -/
structure StoresPart (t t' : FileTree) (dir : Path) (name : Bytes) (result : Except Bytes Unit) (data : Bytes) :
    Prop where
  elsewhere : ∀ other, ¬ other <+: dir → other ≠ dir ++ [name] → other ≠ dir ++ [name ++ str ".tmp"] →
    t'.entry other = t.entry other
  failed : ∀ e, result = .error e → t'.entry (dir ++ [name]) = t.entry (dir ++ [name])
  stored : result = .ok () → t'.entry (dir ++ [name]) = some (.file data)

theorem child_not_above (dir : Path) (name : Bytes) : ¬ dir ++ [name] <+: dir := by
  intro isPrefix
  have short := isPrefix.length_le
  simp at short

theorem name_ne_temp (dir : Path) (name : Bytes) : dir ++ [name] ≠ dir ++ [name ++ str ".tmp"] := by
  intro same
  have names := singleton_inj.mp (append_cancel_left same)
  have lengths := congrArg length names
  simp [str] at lengths

theorem writePart_ok {faults : PartFaults} {tempPath : Path} {body : Answer} {written : Bytes}
    (wrote : writePart faults tempPath body = (written, .ok ())) : written = body.bytes := by
  unfold writePart at wrote
  split at wrote
  · cases wrote
  · exact (Prod.mk.inj wrote).1.symm

/-- What is left once the temporary file is written and thrown away. -/
theorem storesPart_discarded {t₁ t₂ : FileTree} {name : Bytes} {content : Bytes} (e : Bytes) (keep : Bool)
    (grown : FileTree.Grown t t₁ dir) (entries : ∀ other, t₂.entry other =
      if other = dir ++ [name ++ str ".tmp"] then some (.file content) else t₁.entry other) :
    StoresPart t (if keep then t₂ else (t₂.remove (dir ++ [name ++ str ".tmp"])).2) dir name (.error e) data := by
  have same (other : Path) (apart : other ≠ dir ++ [name ++ str ".tmp"]) :
      (if keep then t₂ else (t₂.remove (dir ++ [name ++ str ".tmp"])).2).entry other = t₁.entry other := by
    have kept : t₂.entry other = t₁.entry other := by rw [entries, if_neg apart]
    cases keep with
    | true => exact kept
    | false =>
      obtain ⟨_, removed, left⟩ := remove_file (show t₂.entry (dir ++ [name ++ str ".tmp"]) = _ by
        rw [entries, if_pos rfl])
      rw [if_neg Bool.false_ne_true, removed, left, if_neg apart, kept]
  refine ⟨fun other outside _ apart => ?_, fun _ _ => ?_, nofun⟩
  · rw [same other apart]
    exact (grown other).resolve_right fun ⟨_, _, above⟩ => outside above
  · rw [same _ (name_ne_temp dir name)]
    exact (grown _).resolve_right fun ⟨_, _, above⟩ => child_not_above dir name above

theorem storesPart_grown {t₁ : FileTree} {name : Bytes} (e : Bytes) (grown : FileTree.Grown t t₁ dir) :
    StoresPart t t₁ dir name (.error e) data := by
  refine ⟨fun other outside _ _ => ?_, fun _ _ => ?_, nofun⟩
  · exact (grown other).resolve_right fun ⟨_, _, above⟩ => outside above
  · exact (grown _).resolve_right fun ⟨_, _, above⟩ => child_not_above dir name above

theorem storePart_spec (faults : PartFaults) (t : FileTree) (dir : Path) (name : Bytes) (body : Answer) :
    StoresPart t (storePart faults t dir (dir ++ [name]) body).2 dir name
      (storePart faults t dir (dir ++ [name]) body).1 body.bytes := by
  let temp := dir ++ [name ++ str ".tmp"]
  have grown := (mkdirAll_grown faults.mkdir t [] dir (entry_root t)).1
  unfold storePart
  rw [partTempPath_append]
  generalize t.mkdirAll faults.mkdir [] dir = out at grown ⊢
  obtain ⟨⟨_, e⟩ | ⟨⟩, t₁⟩ := out
  · exact storesPart_grown _ grown
  simp only at grown ⊢
  cases faults.create with
  | some e => exact storesPart_grown _ grown
  | none =>
    rcases t₁.create_cases temp with ⟨e, refused⟩ | ⟨t₂, created, entries⟩
    · rw [refused]
      exact storesPart_grown _ grown
    rw [created]
    have empty : t₂.entry temp = some (.file []) := by rw [entries, if_pos rfl]
    have filled (content : Bytes) (other : Path) : (t₂.append temp content).entry other =
          if other = temp then some (.file content) else t₁.entry other := by
      rw [entry_append empty, nil_append]
      split
      · rfl
      · next apart => rw [entries, if_neg apart]
    rcases wrote : writePart faults temp body with ⟨written, e | ⟨⟩⟩
    · exact storesPart_discarded _ _ grown (filled written)
    obtain rfl := writePart_ok wrote
    simp only
    cases faults.sync with
    | some e => exact storesPart_discarded _ _ grown (filled _)
    | none =>
      cases faults.rename with
      | some e => exact storesPart_discarded _ _ grown (filled _)
      | none =>
        rcases (t₂.append temp body.bytes).rename_cases temp (dir ++ [name]) with ⟨e, refused⟩ | ⟨_, _, renamed, held, left⟩
        · rw [refused]
          exact storesPart_discarded _ _ grown (filled _)
        rw [renamed]
        rw [filled, if_pos rfl] at held
        cases held
        refine ⟨fun other outside isPart isTemp => ?_, nofun, fun _ => ?_⟩
        · rw [left, if_neg isPart, if_neg isTemp, filled, if_neg isTemp]
          exact (grown other).resolve_right fun ⟨_, _, above⟩ => outside above
        · rw [left, if_pos rfl]

/-- The files of the other parts stay. -/
theorem StoresPart.other {t' : FileTree} {result : Except Bytes Unit}
    (stores : StoresPart t t' dir (partName n) result data) (apart : m ≠ n) :
    t'.entry (dir ++ [partName m]) = t.entry (dir ++ [partName m]) := by
  refine stores.elsewhere _ (child_not_above dir _) (fun same => apart ?_) fun same => ?_
  · exact partName_inj (singleton_inj.mp (append_cancel_left same))
  · exact partName_ne_temp m n (singleton_inj.mp (append_cancel_left same))

/-! ### One request -/

theorem partNumber_eq_some {number : Int}
    (parsed : ((parseInt (r.queryGet (str "partNumber"))).filter fun n => 1 ≤ n ∧ n ≤ 10000) = some number) :
    ∃ n : Nat, number = n ∧ partNumber r = some n := by
  have bounds := (Option.filter_eq_some_iff.mp parsed).2
  rw [decide_eq_true_eq] at bounds
  refine ⟨number.toNat, by omega, ?_⟩
  rw [partNumber, parsed]
  rfl

theorem partNumber_le (numbered : partNumber r = some n) : n ≤ 10000 := by
  obtain ⟨_, parsed, rfl⟩ := Option.map_eq_some_iff.mp numbered
  have bounds := (Option.filter_eq_some_iff.mp parsed).2
  rw [decide_eq_true_eq] at bounds
  omega

/-- A record of a part keeps its number and size. -/
theorem addPart_cases (fault : Option Bytes) (s : Uploads) (uploadID : Bytes) (part : UploadPart) :
    (∃ e, fault = some e ∧ addPart fault s uploadID part = (.error e, s)) ∨
      ∃ part', part'.partNumber = part.partNumber ∧ part'.size = part.size ∧ addPart fault s uploadID part =
        (.ok (), ⟨s.uploads, s.parts.put (uploadID ++ str "/" ++ str (toString part.partNumber)) part'⟩) := by
  cases fault with
  | some e => exact .inl ⟨e, rfl, rfl⟩
  | none =>
    exact .inr ⟨{ part with etag := jsonString part.etag, checksum := jsonString part.checksum }, rfl, rfl, rfl⟩

/-- The stores once a part is in place and on the record. -/
def withPart (w : World κ) (logins : Logins) (fs : FileTree) (k : Bytes) (part : UploadPart) : World κ :=
  { w with logins, fs, uploads := ⟨w.uploads.uploads, w.uploads.parts.put k part⟩ }

/-- Everything an upload of a part can do: nothing but count a login, or leave
the part as it was, or replace its file without a record, or do both. -/
inductive Outcome (g : Config) (faults : PartFaults) (uploadID : Bytes) (w : World κ) (r : Request) :
    Reply → World κ → Prop where
  | refused {reply : Reply} {logins : Logins} (fails : ¬ reply.Succeeded) :
      Outcome g faults uploadID w r reply { w with logins }
  | unstored (n : Nat) {reply : Reply} {logins : Logins} {fs : FileTree} {e : Bytes} (fails : ¬ reply.Succeeded)
      (numbered : partNumber r = some n)
      (stores : StoresPart w.fs fs (getUploadDir g.uploadsDir uploadID) (partName n) (.error e) r.body.bytes) :
      Outcome g faults uploadID w r reply { w with logins, fs }
  | unrecorded (n : Nat) {reply : Reply} {logins : Logins} {fs : FileTree} (fails : ¬ reply.Succeeded)
      (numbered : partNumber r = some n) (fault : faults.addPart ≠ none)
      (stores : StoresPart w.fs fs (getUploadDir g.uploadsDir uploadID) (partName n) (.ok ()) r.body.bytes) :
      Outcome g faults uploadID w r reply { w with
        logins
        fs := if faults.remove.isSome then fs else (fs.remove (getPartPath g.uploadsDir uploadID n)).2 }
  | recorded {reply : Reply} {logins : Logins} {fs : FileTree} {n : Nat} {part : UploadPart}
      (succeeds : reply.Succeeded) (numbered : partNumber r = some n)
      (stores : StoresPart w.fs fs (getUploadDir g.uploadsDir uploadID) (partName n) (.ok ()) r.body.bytes)
      (named : part.partNumber = n) (sized : part.size = r.body.bytes.length) :
      Outcome g faults uploadID w r reply (withPart w logins fs (partKey uploadID n) part)

theorem handleUploadPart_outcome {g : Config} {call : Call κ} {faults : PartFaults} {w' : World κ}
    {bucket key : Bytes} (made : handleUploadPart g call faults w r bucket key = some (reply, w')) :
    Outcome g faults (r.queryGet (str "uploadId")) w r reply w' := by
  unfold handleUploadPart at made
  split at made
  · cases made
    exact .refused id
  rcases identified_cases made with ⟨logins, away, refuses⟩ | ⟨_, logins, -, goesOn⟩
  · obtain rfl : w' = _ := away
    refine .refused fun succeeded => ?_
    rcases refuses with rfl | ⟨e, rfl⟩ <;> exact succeeded
  simp only at goesOn
  split at goesOn
  · cases goesOn
    exact .refused id
  split at goesOn
  · cases goesOn
    exact .refused id
  rename_i number parsed
  obtain ⟨n, rfl, numbered⟩ := partNumber_eq_some parsed
  rw [Int.toNat_natCast] at goesOn
  split at goesOn
  · cases goesOn
    exact .refused id
  split at goesOn
  · cases goesOn
    exact .refused id
  have stores := storePart_spec faults w.fs
    (getUploadDir g.uploadsDir (r.queryGet (str "uploadId"))) (partName n) r.body
  rw [getPartPath_eq] at stores
  split at goesOn
  · next e fs failed =>
    rw [failed] at stores
    cases goesOn
    exact .unstored n id numbered stores
  · next fs stored =>
    rw [stored] at stores
    rcases addPart_cases faults.addPart w.uploads (r.queryGet (str "uploadId")) _ with
      ⟨e, fault, failed⟩ | ⟨_, named, sized, added⟩
    · rw [failed] at goesOn
      cases goesOn
      exact .unrecorded n id numbered (by rw [fault]; nofun) stores
    · rw [added] at goesOn
      cases goesOn
      exact .recorded ⟨Nat.le_refl 200, by omega⟩ numbered stores named sized

/-! ### What a run keeps -/

/-- The records under the upload are those of the acknowledged parts, and the
file of such a part is missing or holds what was acknowledged. -/
structure Backed (g : Config) (uploadID : Bytes) (s : Progress κ) : Prop where
  bounded : ∀ n, s.acknowledged n ≠ none → n ≤ 10000
  recorded : ∀ n body, s.acknowledged n = some body →
    ∃ part, s.world.uploads.parts.get (partKey uploadID n) = some part ∧ part.partNumber = n ∧
      part.size = body.length
  known : ∀ k part, uploadID ++ str "/" <+: k → s.world.uploads.parts.get k = some part →
    ∃ n, s.acknowledged n ≠ none ∧ k = partKey uploadID n
  filed : ∀ n body, s.acknowledged n = some body →
    s.world.fs.entry (getPartPath g.uploadsDir uploadID n) = none ∨
      s.world.fs.entry (getPartPath g.uploadsDir uploadID n) = some (.file body)

section
variable {g : Config} {uploadID : Bytes} {s : Progress κ}

theorem after_failed (fails : ¬ reply.Succeeded) (w : World κ) : s.after r (reply, w) = ⟨w, s.acknowledged⟩ := by
  simp [Progress.after, fails]

/-- A request that is not acknowledged may at most remove files. -/
theorem Backed.spared (backed : Backed g uploadID s) (records : w.uploads = s.world.uploads)
    (files : ∀ n, s.acknowledged n ≠ none → w.fs.entry (getPartPath g.uploadsDir uploadID n) = none ∨
      w.fs.entry (getPartPath g.uploadsDir uploadID n) = s.world.fs.entry (getPartPath g.uploadsDir uploadID n)) :
    Backed g uploadID ⟨w, s.acknowledged⟩ := by
  refine ⟨backed.bounded, ?_, ?_, fun n body acknowledged => ?_⟩
  · rw [records]
    exact backed.recorded
  · rw [records]
    exact backed.known
  · rcases files n (by rw [acknowledged]; nofun) with missing | same
    · exact .inl missing
    · rw [same]
      exact backed.filed n body acknowledged

variable {part : UploadPart}

theorem Backed.recorded_part (backed : Backed g uploadID s) {logins : Logins} {fs : FileTree}
    (succeeds : reply.Succeeded) (numbered : partNumber r = some n)
    (stores : StoresPart s.world.fs fs (getUploadDir g.uploadsDir uploadID) (partName n) (.ok ()) r.body.bytes)
    (named : part.partNumber = n) (sized : part.size = r.body.bytes.length) :
    Backed g uploadID (s.after r (reply, withPart s.world logins fs (partKey uploadID n) part)) := by
  have updated (m : Nat) : (s.after r (reply, withPart s.world logins fs (partKey uploadID n) part)).acknowledged m =
        if m = n then some r.body.bytes else s.acknowledged m := by
    simp [Progress.after, succeeds, numbered, eq_comm]
  refine ⟨fun m acknowledged => ?_, fun m body acknowledged => ?_, fun k part' under held => ?_,
    fun m body acknowledged => ?_⟩
  · rw [updated] at acknowledged
    split at acknowledged
    · next same => exact same ▸ partNumber_le numbered
    · exact backed.bounded m acknowledged
  · rw [updated] at acknowledged
    split at acknowledged
    · next same =>
      cases acknowledged
      subst same
      exact ⟨part, get_put_same _ _ _, named, sized⟩
    · next apart =>
      obtain ⟨part', held, rest⟩ := backed.recorded m body acknowledged
      refine ⟨part', ?_, rest⟩
      exact (get_put_ne _ _ fun same => apart (str_toString_injective (append_cancel_left same)).symm).trans held
  · by_cases same : partKey uploadID n = k
    · exact ⟨n, by rw [updated, if_pos rfl]; nofun, same.symm⟩
    · obtain ⟨m, acknowledged, rfl⟩ := backed.known k part' under ((get_put_ne _ _ same).symm.trans held)
      refine ⟨m, ?_, rfl⟩
      rw [updated, if_neg fun own : m = n => same (own ▸ rfl)]
      exact acknowledged
  · rw [updated] at acknowledged
    split at acknowledged
    · next same =>
      cases acknowledged
      subst same
      exact .inr (stores.stored rfl)
    · next apart =>
      have kept : fs.entry (getPartPath g.uploadsDir uploadID m) = _ := stores.other apart
      simp only [Progress.after, withPart, kept]
      exact backed.filed m body acknowledged

/-- The step of a run. -/
theorem Backed.next {bucket key : Bytes} {a : Attempt κ uploadID} {s' : Progress κ} (backed : Backed g uploadID s)
    (made : next g bucket key s a = some s') (takenBack : TakenBack s a) : Backed g uploadID s' := by
  obtain ⟨⟨_, _⟩, handled, rfl⟩ := Option.map_eq_some_iff.mp made
  have outcome := handleUploadPart_outcome handled
  rw [a.concerns] at outcome
  cases outcome with
  | refused fails =>
    rw [after_failed fails]
    exact backed.spared rfl fun _ _ => .inr rfl
  | unstored n fails numbered stores =>
    rw [after_failed fails]
    refine backed.spared rfl fun m _ => .inr ?_
    by_cases same : m = n
    · subst same
      exact stores.failed _ rfl
    · exact stores.other same
  | unrecorded n fails numbered fault stores =>
    rw [after_failed fails]
    refine backed.spared rfl fun m acknowledged => ?_
    have placed := stores.stored rfl
    rw [getPartPath_eq] at placed
    cases removing : a.faults.remove with
    | none =>
      obtain ⟨_, removed, left⟩ := remove_file placed
      simp only [Option.isSome_none, Bool.false_eq_true, if_false, removed, left]
      by_cases same : m = n
      · subst same
        exact .inl (if_pos rfl)
      · right
        rw [if_neg fun path : getPartPath _ _ m = getPartPath _ _ n =>
          same (partName_inj (singleton_inj.mp (append_cancel_left path)))]
        exact stores.other same
    | some e =>
      have apart : m ≠ n := by
        rintro rfl
        rcases takenBack with recorded | removes | unknown
        · exact fault recorded
        · rw [removing] at removes
          cases removes
        · exact acknowledged (unknown m numbered)
      exact .inr (stores.other apart)
  | recorded succeeds numbered stores named sized =>
    exact backed.recorded_part succeeds numbered stores named sized

/-! ### Completing -/

theorem recordedParts_eq (s : Uploads) (uploadID : Bytes) : recordedParts s uploadID =
    (s.parts.entries.filter fun e => (uploadID ++ str "/").isPrefixOf e.1).map (·.2) :=
  congrArg (map Prod.snd) ( seek_prefix s.parts (uploadID ++ str "/"))

theorem mem_recordedParts {s : Uploads} {uploadID : Bytes} :
    part ∈ recordedParts s uploadID ↔ ∃ k, uploadID ++ str "/" <+: k ∧ s.parts.get k = some part := by
  rw [recordedParts_eq, mem_map]
  constructor
  · rintro ⟨e, listed, rfl⟩
    obtain ⟨member, under⟩ := mem_filter.mp listed
    exact ⟨e.1, isPrefixOf_iff_prefix.mp under, get_of_mem member⟩
  · rintro ⟨k, under, held⟩
    refine ⟨(k, part), mem_filter.mpr ⟨mem_of_get held, ?_⟩, rfl⟩
    exact isPrefixOf_iff_prefix.mpr under

theorem getParts_perm (s : Uploads) (uploadID : Bytes) : (getParts s uploadID).Perm (recordedParts s uploadID) :=
  mergeSort_perm _ _

section
variable (backed : Backed g uploadID s)

include backed

/-- A record under the upload describes an acknowledged part. -/
theorem Backed.describes {k : Bytes} (under : uploadID ++ str "/" <+: k)
    (held : s.world.uploads.parts.get k = some part) :
    ∃ n body, k = partKey uploadID n ∧ part.partNumber = n ∧ s.acknowledged n = some body ∧
      part.size = body.length := by
  obtain ⟨n, acknowledged, rfl⟩ := backed.known k part under held
  obtain ⟨body, acknowledged⟩ := Option.ne_none_iff_exists'.mp acknowledged
  obtain ⟨_, found, named, sized⟩ := backed.recorded n body acknowledged
  cases held.symm.trans found
  exact ⟨n, body, rfl, named, acknowledged, sized⟩

theorem Backed.recorded_iff (n : Nat) :
    (∃ part ∈ recordedParts s.world.uploads uploadID, part.partNumber = n) ↔ s.acknowledged n ≠ none := by
  constructor
  · rintro ⟨part, listed, named⟩
    obtain ⟨_, under, held⟩ := mem_recordedParts.mp listed
    obtain ⟨m, body, -, named', acknowledged, -⟩ := backed.describes under held
    obtain rfl : m = n := Int.ofNat_inj.mp (named'.symm.trans named)
    rw [acknowledged]
    nofun
  · intro acknowledged
    obtain ⟨body, acknowledged⟩ := Option.ne_none_iff_exists'.mp acknowledged
    obtain ⟨part, found, named, -⟩ := backed.recorded n body acknowledged
    exact ⟨part, mem_recordedParts.mpr ⟨_, prefix_append _ _, found⟩, named⟩

theorem Backed.natural (listed : part ∈ recordedParts s.world.uploads uploadID) :
    (part.partNumber.toNat : Int) = part.partNumber := by
  obtain ⟨_, under, held⟩ := mem_recordedParts.mp listed
  obtain ⟨_, -, -, named, -⟩ := backed.describes under held
  rw [named, Int.toNat_natCast]

theorem Backed.numbers_nodup :
    ((recordedParts s.world.uploads uploadID).map fun part => part.partNumber.toNat).Nodup := by
  rw [recordedParts_eq, map_map]
  refine pairwise_map.mpr ((s.world.uploads.parts.sorted.filter _).imp_of_mem fun {a b} first second less => ?_)
  have number {e : Bytes × UploadPart} (listed : e ∈ s.world.uploads.parts.entries.filter fun e =>
      (uploadID ++ str "/").isPrefixOf e.1) : e.1 = partKey uploadID e.2.partNumber.toNat := by
    obtain ⟨member, under⟩ := mem_filter.mp listed
    obtain ⟨_, -, isKey, named, -⟩ := backed.describes ( isPrefixOf_iff_prefix.mp under) (get_of_mem member)
    rw [isKey, named, Int.toNat_natCast]
  intro same
  apply ne_of_lt less
  rw [number first, number second]
  exact congrArg (partKey uploadID) same

/-- The parts are completed in the order of their numbers. -/
theorem Backed.numbers_eq : ((getParts s.world.uploads uploadID).map fun part => part.partNumber.toNat) =
      (range 10001).filter fun n => (s.acknowledged n).isSome := by
  have sorting := getParts_perm s.world.uploads uploadID
  have ascending : ((getParts s.world.uploads uploadID).map fun part => part.partNumber.toNat).Pairwise (· ≤ ·) := by
    refine pairwise_map.mpr ((pairwise_mergeSort ?_ ?_ _).imp fun {a b} below => ?_)
    · intro a b c first second
      simp only [decide_eq_true_eq] at first second ⊢
      omega
    · intro a b
      simp only [Bool.or_eq_true, decide_eq_true_eq]
      omega
    · simp only [decide_eq_true_eq] at below
      omega
  refine List.Perm.eq_of_pairwise (fun a b _ _ => Nat.le_antisymm) ascending
    ((List.pairwise_lt_range.imp Nat.le_of_lt).filter _) ?_
  have nodup := ((sorting.map fun part => part.partNumber.toNat).nodup_iff).mpr backed.numbers_nodup
  refine (perm_ext_iff_of_nodup nodup (List.nodup_range.filter _)).mpr fun n => ?_
  have listed : n ∈ (getParts s.world.uploads uploadID).map (fun part => part.partNumber.toNat) ↔
      ∃ part ∈ recordedParts s.world.uploads uploadID, part.partNumber = n := by
    rw [mem_map]
    refine exists_congr fun part => ?_
    rw [sorting.mem_iff]
    refine and_congr_right fun member => ?_
    have natural := backed.natural member
    omega
  rw [listed, backed.recorded_iff, mem_filter, mem_range, Option.isSome_iff_ne_none]
  exact ⟨fun acknowledged => ⟨Nat.lt_succ_of_le (backed.bounded n acknowledged), acknowledged⟩, And.right⟩

end

theorem readPart_file {faults : Completion} {path : Path} {n : Int} {data : Answer} {bytes : Bytes}
    (opened : readPart faults t path n = .ok data) (read : readAll data = .ok bytes) :
    t.entry path = some (.file bytes) := by
  unfold readPart at opened
  split at opened
  · cases opened
  split at opened
  · cases opened
  · cases opened
    cases read
  rename_i held
  split at opened
  · cases opened
    cases read
    exact held
  · cases opened
    cases read

/-- A merge that comes to its end consists of what the files of the parts hold. -/
theorem mergeParts_content (content : UploadPart → Bytes) {faults : Completion} {uploadsDir : Path} {total : Int}
    {parts : List UploadPart} (merged : Bytes) (filed : ∀ part ∈ parts, ∀ data,
      t.entry (getUploadDir uploadsDir uploadID ++ [str "part-" ++ str (toString part.partNumber)]) =
        some (.file data) → data = content part)
    (ended : (mergeParts faults t uploadsDir uploadID total parts merged).err = none ∨
      (mergeParts faults t uploadsDir uploadID total parts merged).err = some .eof) :
    (mergeParts faults t uploadsDir uploadID total parts merged).bytes = merged ++ (parts.map content).flatten := by
  induction parts generalizing merged with
  | nil =>
    unfold mergeParts
    rw [map_nil, flatten_nil, append_nil]
    split <;> rfl
  | cons part rest ih =>
    obtain ⟨here, others⟩ := forall_mem_cons.mp filed
    unfold mergeParts at ended ⊢
    simp only at ended ⊢
    split at ended
    · rcases ended with ended | ended <;> cases ended
    rename_i data opened
    split at ended
    · rcases ended with ended | ended <;> cases ended
    · next bytes read =>
      obtain rfl := here bytes (readPart_file opened read)
      rw [ih _ others ended, map_cons, flatten_cons, append_assoc]

/-- The parts hold the acknowledged bodies. -/
theorem Backed.bodies_eq (backed : Backed g uploadID s) :
    s.bodies = (getParts s.world.uploads uploadID).map fun part => (s.acknowledged part.partNumber.toNat).getD [] := by
  have some_part : s.bodies = ((range 10001).filter fun n => (s.acknowledged n).isSome).map
      fun n => (s.acknowledged n).getD [] := by
    unfold Progress.bodies
    induction range 10001 with
    | nil => rfl
    | cons n rest ih =>
      cases held : s.acknowledged n <;> simp [held, ih]
  rw [some_part, ← backed.numbers_eq, map_map]
  rfl

/-- The file of a recorded part, if it is there, holds what was acknowledged. -/
theorem Backed.content (backed : Backed g uploadID s) (listed : part ∈ getParts s.world.uploads uploadID)
    (file : s.world.fs.entry (getUploadDir g.uploadsDir uploadID ++ [str "part-" ++ str (toString part.partNumber)]) =
      some (.file data)) : data = (s.acknowledged part.partNumber.toNat).getD [] := by
  obtain ⟨_, under, held⟩ := mem_recordedParts.mp ((getParts_perm _ _).mem_iff.mp listed)
  obtain ⟨n, body, -, named, acknowledged, -⟩ := backed.describes under held
  rw [named] at file ⊢
  rw [Int.toNat_natCast, acknowledged, Option.getD_some]
  rcases backed.filed n body acknowledged with missing | present
  · cases missing.symm.trans file
  · cases present.symm.trans file
    rfl

/-- What is completed is what was acknowledged. -/
theorem Backed.exact {bucket key : Bytes} (backed : Backed g uploadID s) (apart : ∀ root, g.tiers tierHot = some root →
      ¬ getUploadDir g.uploadsDir uploadID <+: objectPath root bucket key) : Exact g bucket key uploadID s := by
  refine ⟨backed.recorded_iff, fun call faults r reply w' concerns completed succeeded => ?_⟩
  have handled : (Write.complete call faults r).handle g bucket key s.world = some (reply, w') := completed
  obtain ⟨_, _, _, root, prepared, ended, found, -, registered, file⟩ := write_placed handled succeeded
  obtain ⟨_, _, -, rfl, rfl⟩ := preparedComplete_spec.ok prepared
  simp only [Prepared.settled, completePlan, concerns] at ended file
  have placed := file fun swept => apart root registered (concerns ▸ swept)
  have total := mergeParts_length _ _ _ _ _ _ _ ended
  rw [mergeParts_content _ [] (fun part listed data => backed.content listed) ended, nil_append,
    ← backed.bodies_eq] at placed total
  refine ⟨⟨root, registered, placed⟩, _, found, rfl, rfl, ?_⟩
  rw [← length_flatten, ← total, ← concerns]
  rfl

/-! ### From the beginning -/

theorem start_backed (fresh : recordedParts w.uploads uploadID = []) : Backed g uploadID (.start w) := by
  refine ⟨fun n acknowledged => absurd rfl acknowledged, nofun, fun k part under held => ?_, nofun⟩
  have listed : part ∈ recordedParts w.uploads uploadID := mem_recordedParts.mpr ⟨k, under, held⟩
  rw [fresh] at listed
  cases listed

/-- A new upload comes without parts. -/
theorem handleCreate_parts {call : Call κ} {faults : CreateFaults} {w' : World κ} {bucket key : Bytes}
    (created : handleCreateMultipartUpload g call faults w r bucket key uploadID = some (reply, w')) :
    w'.uploads.parts = w.uploads.parts := by
  have recorded (s : Uploads) (upload : MultipartUpload) :
      (putUpload faults.putUpload call.db.now uploadID s upload).2.parts = s.parts := by
    unfold putUpload
    simp only
    split <;> rfl
  unfold handleCreateMultipartUpload at created
  split at created
  · cases created
    rfl
  rcases identified_cases created with ⟨logins, away, -⟩ | ⟨_, logins, -, goesOn⟩
  · obtain rfl : w' = _ := away
    rfl
  have outcome := Option.some.inj goesOn
  rcases withUserID_cases g call { w with logins } r _ with ⟨logins', panicked⟩ | ⟨_, logins', named⟩
  · rw [panicked] at outcome
    cases outcome
    rfl
  rw [named] at outcome
  split at outcome
  · cases outcome
    rfl
  rename_i uploads put
  have kept := congrArg (fun out => out.2.parts) put
  rw [show _ = _ from recorded _ _] at kept
  split at outcome
  · cases outcome
    exact kept.symm
  · cases outcome
    exact kept.symm

end

/-- In every run of an upload in which no part keeps a file that it could not
record, a completion makes the object of what was acknowledged. -/
theorem completes_acknowledged {g : Config} {bucket key uploadID : Bytes} {call : Call κ} {faults : CreateFaults}
    {w w' : World κ} {r : Request} {headers : List (Bytes × Bytes)}
    (fresh : recordedParts w.uploads uploadID = [])
    (created : handleCreateMultipartUpload g call faults w r bucket key uploadID =
      some (.sent 200 headers [] none, w'))
    (apart : ∀ root, g.tiers tierHot = some root → ¬ getUploadDir g.uploadsDir uploadID <+: objectPath root bucket key)
    {attempts : List (Attempt κ uploadID)}
    (takenBack : Runs.Throughout (next g bucket key) TakenBack (.start w') attempts) :
    Runs.Always (next g bucket key) (Exact g bucket key uploadID) (.start w') attempts := by
  have freshAfter : recordedParts w'.uploads uploadID = [] := by
    rw [recordedParts, handleCreate_parts created]
    exact fresh
  have always := takenBack.always (fun _ _ s s' made (backed : Backed g uploadID s) => backed.next made)
    (start_backed freshAfter)
  exact always.mono fun s backed => backed.exact apart

namespace Sample

open Resumable.Sample (config call world request)

def created : Option (Reply × World Unit) :=
  handleCreateMultipartUpload config call ⟨none, fun _ => none⟩ world
    (request (str "POST") (str "uploads") [] ⟨[], some .eof⟩) (str "b") (str "k") (str "42")

/-- The first part of the upload `42`, with the fates of its record and of the
removal after it. -/
def upload (text : String) (addPart : Option Bytes) (remove : Option Errno) : Attempt Unit (str "42") where
  call := call
  faults := ⟨fun _ => none, none, none, none, none, remove, addPart⟩
  request := request (str "PUT") (str "uploadId=42&partNumber=1") [] ⟨str text, some .eof⟩
  concerns := by
    have named : (request (str "PUT") (str "uploadId=42&partNumber=1") [] ⟨[], none⟩).queryGet (str "uploadId") =
      str "42" := by decide +kernel
    exact named

def acknowledged : Attempt Unit (str "42") := upload "bark" none none

/-- A body that is neither recorded nor taken back. -/
def lingering : Attempt Unit (str "42") :=
  upload "meow" (some (str "input/output error")) (some (.other (str "input/output error")))

/-- A body that is not recorded and taken back. -/
def withdrawn : Attempt Unit (str "42") := upload "meow" (some (str "input/output error")) none

def complete (w : World Unit) : Option (Reply × World Unit) :=
  handleCompleteMultipartUpload config call ⟨fun _ => none, fun _ => none, .none, none⟩ w
    (request (str "POST") (str "uploadId=42") [] ⟨[], some .eof⟩) (str "b") (str "k")

/-- What can be seen of a run of the two uploads and a completion: the body
that is acknowledged, the answer, and the object. -/
def seen (first second : Attempt Unit (str "42")) : Option (Option Bytes × Reply × Option Entry) :=
  created.bind fun c => (next config (str "b") (str "k") (.start c.2) first).bind fun s =>
    (next config (str "b") (str "k") s second).bind fun s => (complete s.world).map fun out =>
      (s.acknowledged 1, out.1, out.2.fs.entry [str "hot", str "b", str "k"])

end Sample

open PartUploads.Sample

open Resumable.Sample hiding created seen

/-- A body is acknowledged, another one for the same part is refused, and the
completion stores the refused one. -/
theorem unacknowledged_stored : ∃ c s₁ s₂ out, created = some c ∧
      next config (str "b") (str "k") (.start c.2) acknowledged = some s₁ ∧
      next config (str "b") (str "k") s₁ lingering = some s₂ ∧
      s₂.acknowledged 1 = some (str "bark") ∧ complete s₂.world = some out ∧
      out.1 = .sent 200 [(str "ETag", quoted (str "e1"))] [] none ∧
      out.2.fs.entry [str "hot", str "b", str "k"] = some (.file (str "meow")) ∧
      ¬ Runs.Always (next config (str "b") (str "k")) (Exact config (str "b") (str "k") (str "42")) (.start c.2)
        [acknowledged, lingering] := by
  have ran : seen acknowledged lingering =
      some (some (str "bark"), .sent 200 [(str "ETag", quoted (str "e1"))] [] none, some (.file (str "meow"))) := by
    decide +kernel
  have named : (request (str "POST") (str "uploadId=42") [] ⟨[], some .eof⟩).queryGet
      (str "uploadId") = str "42" := by decide +kernel
  obtain ⟨c, created, ran⟩ := Option.bind_eq_some_iff.mp ran
  obtain ⟨s₁, first, ran⟩ := Option.bind_eq_some_iff.mp ran
  obtain ⟨s₂, second, ran⟩ := Option.bind_eq_some_iff.mp ran
  obtain ⟨out, completed, ran⟩ := Option.map_eq_some_iff.mp ran
  obtain ⟨acknowledged, ran⟩ := Prod.mk.inj ran
  obtain ⟨answered, file⟩ := Prod.mk.inj ran
  refine ⟨c, s₁, s₂, out, created, first, second, acknowledged, completed, answered, file, fun always => ?_⟩
  have exact_ := ((always.2 s₁ first).2 s₂ second).completed _ _ _ out.1 out.2 named completed
    (by rw [answered]; decide)
  obtain ⟨_, registered, stored⟩ := exact_.file
  cases registered
  have same := stored.symm.trans file
  have listed : str "bark" ∈ s₂.bodies := mem_filterMap.mpr ⟨1, mem_range.mpr (by omega), acknowledged⟩
  have shared : (98 : UInt8) ∈ s₂.bodies.flatten := mem_flatten.mpr ⟨_, listed, by decide⟩
  rw [Entry.file.inj (Option.some.inj same)] at shared
  exact absurd shared (by decide)

/-- A body that is withdrawn does not get into the object. -/
theorem withdrawn_left_out : ∃ c, created = some c ∧ Runs.Always (next config (str "b") (str "k"))
      (Exact config (str "b") (str "k") (str "42")) (.start c.2)
      [acknowledged, withdrawn] := by
  have answered : created.map (·.1) = some (.sent 200 [(str "x-amz-upload-id", str "42")] [] none) := by
    decide +kernel
  have apart : ¬ getUploadDir config.uploadsDir (str "42") <+:
      objectPath [str "hot"] (str "b") (str "k") := by decide +kernel
  obtain ⟨⟨_, _⟩, created, rfl⟩ := Option.map_eq_some_iff.mp answered
  refine ⟨_, created, completes_acknowledged rfl created (fun root registered => ?_) fun s₁ _ => ?_⟩
  · cases registered
    exact apart
  · exact ⟨.inl rfl, fun s₂ _ => ⟨.inr (.inl rfl), trivial⟩⟩

end CipherLake.PartUploads

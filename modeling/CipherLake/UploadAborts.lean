import CipherLake.IdentityPolicies
import CipherLake.Multipart

/-! Which files an abort of a multipart upload takes away. The upload id of the
request is resolved against the uploads directory as a path, so it names any
directory of the machine, and everything below it goes. -/
namespace CipherLake.Multipart
open Lib Http AccessControl Metadata Storage Gateway FileTree Option

variable {κ : Type} {faults : Faults} {t : FileTree} {path : Path} {uploadID : Bytes}

/-! ### The clean-up -/

/-- What a clean-up takes away: files at or below the directory, and then the
directory itself. -/
def Reaches (t : FileTree) (dir path : Path) : Prop :=
  (∃ data, t.entry path = some (.file data) ∧ dir <+: path) ∨
    path = dir ∧ dir ≠ [] ∧ t.entry dir = some .dir ∧
      ∀ other, dir <+: other → other ≠ dir → t.entry other ≠ some .dir

theorem stat_ok (found : stat faults t path = .ok ()) : t.entry path ≠ none := by
  unfold stat at found
  split at found
  · cases found
  · split at found
    · cases found
    · next held => rw [held]; exact some_ne_none _

theorem stat_none (held : t.entry path ≠ none) : stat .none t path = .ok () := by
  obtain ⟨_, found⟩ := ne_none_iff_exists'.mp held
  simp only [stat, Faults.none, found]

theorem removeDir_cases (faults : Faults) (t : FileTree) (path : Path) :
    (∃ e, removeDir faults t path = (.error e, t)) ∨
      ∃ t', removeDir faults t path = (.ok (), t') ∧ path ≠ [] ∧ t.occupied path = false ∧
        ∀ other, t'.entry other = if other = path then none else t.entry other := by
  unfold removeDir
  cases faults.remove path with
  | some e => exact .inl ⟨e, rfl⟩
  | none =>
    unfold FileTree.remove
    by_cases root : path = []
    · rw [if_pos root]
      exact .inl ⟨_, rfl⟩
    rw [if_neg root]
    cases t.entry path with
    | none => exact .inl ⟨_, rfl⟩
    | some value =>
      cases busy : t.occupied path with
      | true => exact .inl ⟨_, rfl⟩
      | false => exact .inr ⟨_, rfl, root, rfl, entry_erase root busy⟩

theorem removeDir_none (named : path ≠ []) (held : t.entry path ≠ none) (free : t.occupied path = false) :
    (removeDir .none t path).2.entry path = none := by
  obtain ⟨_, found⟩ := ne_none_iff_exists'.mp held
  simp only [removeDir, Faults.none, FileTree.remove, if_neg named, found, free]
  rw [if_neg Bool.false_ne_true, entry_erase named free, if_pos rfl]

/-- What a removal of a directory leaves out stays out. -/
theorem removeDir_absent {other : Path} (absent : t.entry other = none) :
    (removeDir faults t path).2.entry other = none := by
  rcases removeDir_cases faults t path with ⟨_, refused⟩ | ⟨_, removed, -, -, entries⟩
  · rw [refused]
    exact absent
  · rw [removed, entries, absent, ite_self]

/-- The tree after a clean-up that found the directory. -/
theorem cleanupParts_tree {uploadsDir : Path} (found : stat faults t (getUploadDir uploadsDir uploadID) = .ok ()) :
    (cleanupParts faults t uploadsDir uploadID).2 =
      (removeDir faults (t.removeFiles faults.remove (t.walk faults.list (getUploadDir uploadsDir uploadID))).2
        (getUploadDir uploadsDir uploadID)).2 := by
  unfold cleanupParts
  simp only [found]
  generalize removeDir faults _ (getUploadDir uploadsDir uploadID) = out
  rcases out with ⟨e | _, -⟩
  · cases e <;> rfl
  · rfl

/-- Whatever fails, a clean-up changes nothing but what it reaches. -/
theorem cleanupParts_frame (faults : Faults) (t : FileTree) (uploadsDir : Path) (uploadID : Bytes) (path : Path)
    (changed : (cleanupParts faults t uploadsDir uploadID).2.entry path ≠ t.entry path) :
    Reaches t (getUploadDir uploadsDir uploadID) path := by
  cases found : stat faults t (getUploadDir uploadsDir uploadID) with
  | error e =>
    refine absurd ?_ changed
    unfold cleanupParts
    simp only [found]
    cases e <;> rfl
  | ok done =>
    rw [cleanupParts_tree found] at changed
    have held := stat_ok found
    generalize getUploadDir uploadsDir uploadID = dir at *
    have files (other : Path) := removeFiles_frame faults.remove t (t.walk faults.list dir) other
    generalize (t.removeFiles faults.remove (t.walk faults.list dir)).2 = cleared at *
    have reached {other : Path} (differs : cleared.entry other ≠ t.entry other) :
        ∃ data, t.entry other = some (.file data) ∧ dir <+: other := by
      obtain ⟨-, data, listed⟩ := (files other).resolve_left differs
      exact ⟨data, (walk_below listed).2, (walk_below listed).1⟩
    rcases removeDir_cases faults cleared dir with ⟨e, refused⟩ | ⟨_, removed, named, empty, entries⟩
    · rw [refused] at changed
      exact .inl (reached changed)
    rw [removed] at changed
    by_cases same : path = dir
    · subst same
      rcases standing : t.entry path with - | data | -
      · exact absurd standing held
      · exact .inl ⟨data, standing, List.prefix_rfl⟩
      refine .inr ⟨rfl, named, standing, fun other below apart directory => ?_⟩
      -- nothing is left below, and what the walk removed was a file
      rw [Bool.eq_false_iff, ne_eq, occupied_iff] at empty
      have gone : cleared.entry other = none := by
        by_contra left
        exact empty ⟨other, below, apart, left⟩
      have differs : cleared.entry other ≠ t.entry other := by
        rw [gone, directory]
        nofun
      obtain ⟨data, file, -⟩ := reached differs
      rw [directory] at file
      cases file
    · rw [entries, if_neg same] at changed
      exact .inl (reached changed)

/-- If nothing fails, all that a clean-up reaches goes. -/
theorem cleanupParts_gone (t : FileTree) (uploadsDir : Path) (uploadID : Bytes) (path : Path)
    (reached : Reaches t (getUploadDir uploadsDir uploadID) path) :
    (cleanupParts .none t uploadsDir uploadID).2.entry path = none := by
  have held : t.entry (getUploadDir uploadsDir uploadID) ≠ none := by
    rcases reached with ⟨data, file, below⟩ | ⟨-, -, directory, -⟩
    · by_cases same : getUploadDir uploadsDir uploadID = path
      · rw [same, file]
        nofun
      · rw [entry_ancestor below same (by rw [file]; nofun)]
        nofun
    · rw [directory]
      nofun
  rw [cleanupParts_tree (stat_none held)]
  generalize getUploadDir uploadsDir uploadID = dir at *
  have gone {other : Path} {data : Bytes} (below : dir <+: other) (file : t.entry other = some (.file data)) :
      (t.removeFiles Faults.none.remove (t.walk Faults.none.list dir)).2.entry other = none :=
    removeFiles_gone t _ file (mem_walk below file)
  have files (other : Path) := removeFiles_frame Faults.none.remove t (t.walk Faults.none.list dir) other
  generalize (t.removeFiles Faults.none.remove (t.walk Faults.none.list dir)).2 = cleared at *
  rcases reached with ⟨data, file, below⟩ | ⟨rfl, named, directory, flat⟩
  · exact removeDir_absent (gone below file)
  refine removeDir_none named ?_ ?_
  · rcases files path with kept | ⟨-, data, listed⟩
    · rw [kept, directory]
      nofun
    · rw [(walk_below listed).2] at directory
      cases directory
  · rw [Bool.eq_false_iff, ne_eq, occupied_iff]
    rintro ⟨other, below, apart, left⟩
    rcases standing : t.entry other with - | data | -
    · rcases files other with kept | ⟨none, -⟩
      · exact left (kept.trans standing)
      · exact left none
    · exact left (gone below standing)
    · exact flat other below apart standing

/-! ### Whose files they are -/

/-- The upload is recorded under the bucket, the key and the id of the request.
The record says so itself, since the three are joined to one key of the table. -/
def Registered (s : Uploads) (bucket key uploadID : Bytes) : Prop :=
  ∃ upload, s.uploads.get (uploadKey bucket key uploadID) = some upload ∧
    upload.uploadID = uploadID ∧ upload.bucket = bucket ∧ upload.key = key

/-- A part, or one that is being written. -/
def IsPartFile (uploadsDir : Path) (uploadID : Bytes) (path : Path) : Prop :=
  ∃ partNumber, path = getPartPath uploadsDir uploadID partNumber ∨
    path = getUploadDir uploadsDir uploadID ++ [str "part-" ++ str (toString partNumber) ++ str ".tmp"]

/-- The files of an upload: its parts, and the directory of its own that they
are in. -/
def Owned (t : FileTree) (uploadsDir : Path) (uploadID : Bytes) (path : Path) : Prop :=
  Path.IsName uploadID ∧
    (path = uploadsDir ++ [uploadID] ∧ t.entry path = some .dir ∨
      IsPartFile uploadsDir uploadID path ∧ ∃ data, t.entry path = some (.file data))

/-- No change but to files of the upload the request names. -/
def Confined (uploadsDir : Path) (bucket key uploadID : Bytes) (before after : World κ) : Prop :=
  ∀ path, after.fs.entry path ≠ before.fs.entry path →
    Registered before.uploads bucket key uploadID ∧ Owned before.fs uploadsDir uploadID path

/-- There is nothing to clean up. -/
def Harmless (t : FileTree) (dir : Path) : Prop :=
  t.entry dir = none ∨
    (∀ path data, dir <+: path → t.entry path ≠ some (.file data)) ∧ (dir = [] ∨ t.occupied dir = true)

/-- A directory with nothing but part files in it. -/
def HoldsParts (t : FileTree) (uploadsDir : Path) (uploadID : Bytes) : Prop :=
  t.entry (uploadsDir ++ [uploadID]) = some .dir ∧
    ∀ path data, uploadsDir ++ [uploadID] <+: path → t.entry path = some (.file data) →
      IsPartFile uploadsDir uploadID path

theorem Harmless.unreached {dir : Path} (harmless : Harmless t dir) : ¬ Reaches t dir path := by
  rintro (⟨data, file, below⟩ | ⟨-, named, directory, flat⟩)
  · rcases harmless with absent | ⟨fileless, -⟩
    · by_cases same : dir = path
      · rw [same, file] at absent
        cases absent
      · rw [entry_ancestor below same (by rw [file]; nofun)] at absent
        cases absent
    · exact fileless path data below file
  · rcases harmless with absent | ⟨fileless, root | busy⟩
    · rw [directory] at absent
      cases absent
    · exact named root
    · obtain ⟨other, below, apart, held⟩ := (t.occupied_iff dir).mp busy
      rcases standing : t.entry other with - | data | -
      · exact held standing
      · exact fileless other data below standing
      · exact flat other below apart standing

theorem IsPartFile.below {uploadsDir : Path} (isPart : IsPartFile uploadsDir uploadID path) :
    getUploadDir uploadsDir uploadID <+: path ∧ getUploadDir uploadsDir uploadID ≠ path := by
  obtain ⟨_, rfl | rfl⟩ := isPart
  · exact ⟨List.prefix_append _ _, by simp [getPartPath]⟩
  · exact ⟨List.prefix_append _ _, by simp⟩

theorem getUploadDir_name (uploadsDir : Path) (isName : Path.IsName uploadID) :
    getUploadDir uploadsDir uploadID = uploadsDir ++ [uploadID] := Path.join_name uploadsDir isName

/-- A clean-up keeps to files of the upload in two cases. -/
theorem reaches_owned_iff (t : FileTree) (uploadsDir : Path) (uploadID : Bytes) (registered : Prop) :
    (∀ path, Reaches t (getUploadDir uploadsDir uploadID) path → registered ∧ Owned t uploadsDir uploadID path) ↔
      Harmless t (getUploadDir uploadsDir uploadID) ∨
        registered ∧ Path.IsName uploadID ∧ HoldsParts t uploadsDir uploadID := by
  constructor
  · intro owned
    by_cases files : ∃ path data, getUploadDir uploadsDir uploadID <+: path ∧ t.entry path = some (.file data)
    · obtain ⟨path, data, below, file⟩ := files
      obtain ⟨recorded, isName, mine⟩ := owned path (.inl ⟨data, file, below⟩)
      have here := getUploadDir_name uploadsDir isName
      refine .inr ⟨recorded, isName, ?_, fun other content under held => ?_⟩
      · rcases mine with ⟨-, directory⟩ | ⟨isPart, -⟩
        · rw [file] at directory
          cases directory
        · exact here ▸ entry_ancestor isPart.below.1 isPart.below.2 (by rw [file]; nofun)
      · obtain ⟨-, -, ⟨-, directory⟩ | ⟨isPart, -⟩⟩ := owned other (.inl ⟨content, held, here ▸ under⟩)
        · rw [held] at directory
          cases directory
        · exact isPart
    · have fileless (path : Path) (data : Bytes) (below : getUploadDir uploadsDir uploadID <+: path) :
          t.entry path ≠ some (.file data) := fun file => files ⟨path, data, below, file⟩
      rcases standing : t.entry (getUploadDir uploadsDir uploadID) with - | data | -
      · exact .inl (.inl standing)
      · exact absurd standing (fileless _ data List.prefix_rfl)
      by_cases kept : getUploadDir uploadsDir uploadID = [] ∨ t.occupied (getUploadDir uploadsDir uploadID) = true
      · exact .inl (.inr ⟨fileless, kept⟩)
      obtain ⟨named, free⟩ := not_or.mp kept
      rw [occupied_iff] at free
      obtain ⟨recorded, isName, -⟩ := owned _ (.inr ⟨rfl, named, standing, fun other below apart directory =>
        free ⟨other, below, apart, by rw [directory]; nofun⟩⟩)
      have here := getUploadDir_name uploadsDir isName
      exact .inr ⟨recorded, isName, here ▸ standing, fun path data below file =>
        absurd file (fileless path data (here ▸ below))⟩
  · rintro (harmless | ⟨recorded, isName, directory, parts⟩) path reached
    · exact absurd reached harmless.unreached
    · have here := getUploadDir_name uploadsDir isName
      rw [here] at reached
      refine ⟨recorded, isName, ?_⟩
      rcases reached with ⟨data, file, below⟩ | ⟨rfl, -⟩
      · exact .inr ⟨parts path data below file, data, file⟩
      · exact .inl ⟨rfl, directory⟩

/-! ### Aborting -/

section
variable {env : AccessControl.Env} {fuel : Nat} {p : Provider} {w : World κ} {r : Request} {bucket key : Bytes}
  {identity : Identity} {logins : Logins}

/-- The files after an abort that was let through. -/
theorem handleAbort_files (uploadsDir : Path) (faults : Faults) (dbFault : Option Bytes)
    (deletes : r.method = str "DELETE")
    (authorised : requireIdentity env fuel p w.logins r (str "write") bucket key = some (.ok identity, logins)) :
    ∃ outcome, handleAbortMultipartUpload env fuel p uploadsDir faults dbFault w r bucket key = some outcome ∧
      outcome.2.fs = if r.queryGet (str "uploadId") = [] then w.fs
        else (cleanupParts faults w.fs uploadsDir (r.queryGet (str "uploadId"))).2 := by
  unfold handleAbortMultipartUpload
  rw [if_neg (not_not_intro deletes), authorised, map_some]
  refine ⟨_, rfl, ?_⟩
  by_cases unnamed : r.queryGet (str "uploadId") = []
  · simp only [if_pos unnamed]
  · simp only [if_neg unnamed]
    rcases deleteUpload dbFault w.uploads bucket key (r.queryGet (str "uploadId")) with ⟨_ | -, _⟩ <;> rfl

/-- An abort that is let through keeps to the files of the upload it names if
it names none, if nothing is there, or if the upload is registered, its id is a
plain name, and the directory of that name holds parts only. In every other case
it takes away something else. -/
theorem abort_confined_iff (uploadsDir : Path) (deletes : r.method = str "DELETE")
    (authorised : requireIdentity env fuel p w.logins r (str "write") bucket key = some (.ok identity, logins)) :
    (∀ faults dbFault, ∃ outcome,
      handleAbortMultipartUpload env fuel p uploadsDir faults dbFault w r bucket key = some outcome ∧
        Confined uploadsDir bucket key (r.queryGet (str "uploadId")) w outcome.2) ↔
      r.queryGet (str "uploadId") = [] ∨ Harmless w.fs (getUploadDir uploadsDir (r.queryGet (str "uploadId"))) ∨
        Registered w.uploads bucket key (r.queryGet (str "uploadId")) ∧ Path.IsName (r.queryGet (str "uploadId")) ∧
          HoldsParts w.fs uploadsDir (r.queryGet (str "uploadId")) := by
  have files (faults : Faults) (dbFault : Option Bytes) :=
    handleAbort_files uploadsDir faults dbFault deletes authorised
  generalize r.queryGet (str "uploadId") = uploadID at *
  rw [← reaches_owned_iff]
  constructor
  · intro confined
    by_cases unnamed : uploadID = []
    · exact .inl unnamed
    refine .inr fun path reached => ?_
    obtain ⟨outcome, ran, kept⟩ := confined .none none
    obtain ⟨_, ran', fs⟩ := files .none none
    cases some.inj (ran.symm.trans ran')
    refine kept path ?_
    rw [fs, if_neg unnamed, cleanupParts_gone w.fs uploadsDir uploadID path reached]
    rcases reached with ⟨_, file, -⟩ | ⟨rfl, -, directory, -⟩
    · rw [file]
      nofun
    · rw [directory]
      nofun
  · intro condition faults dbFault
    obtain ⟨outcome, ran, fs⟩ := files faults dbFault
    refine ⟨outcome, ran, fun path changed => ?_⟩
    rw [fs] at changed
    rcases condition with unnamed | owned
    · rw [if_pos unnamed] at changed
      exact absurd rfl changed
    · split at changed
      · exact absurd rfl changed
      · exact owned path (cleanupParts_frame faults w.fs uploadsDir uploadID path changed)

end

namespace Sample

/-- A user who may write to a bucket of their own, and to no other. -/
def provider : Provider :=
  ⟨⟨[⟨str "u1", str "bob", str "pw", [], str "user", [], [(str "mine", [str "write"])]⟩], true, false⟩, none⟩

def env : AccessControl.Env :=
  { IdentityPolicies.Sample.env with comparePassword := fun hash password => hash = password }

def bob : Identity :=
  ⟨str "u1", str "bob", str "user", [], [(str "mine", [str "write"])], false, [], str "legacy"⟩

/-- An abort of an upload to `mine/k` in the user's name. -/
def abort (uploadID : Bytes) : Request where
  method := str "DELETE"
  host := str "localhost:9000"
  path := str "/mine/k"
  rawQuery := str "uploadId=" ++ uploadID
  header := [(str "authorization", str "Basic bob:pw")]
  remoteAddr := str "10.0.0.7:40000"
  contentLength := 0
  body := ⟨[], some .eof⟩

def uploadsDir : Path := [str "data", str "uploads"]

/-- Somebody else's object and one part of an upload of the user's own. -/
def files : FileTree :=
  [([str "data"], Entry.dir), ([str "data", str "hot"], .dir), ([str "data", str "hot", str "theirs"], .dir),
    ([str "data", str "hot", str "theirs", str "report"], .file (str "figures")), (uploadsDir, .dir),
    (uploadsDir ++ [str "42"], .dir), (getPartPath uploadsDir (str "42") 1, .file (str "part"))].foldl
    (fun t e => t.set e.1 e.2) .empty

def world : World Unit where
  logins := []
  fs := files
  metadata := ⟨Table.empty, Table.empty, Table.empty⟩
  cache := none
  keys := ()
  uploads := ⟨Table.empty.put (uploadKey (str "mine") (str "k") (str "42"))
    ⟨str "42", str "mine", str "k", 1, 86400, [], [], false⟩, Table.empty⟩
  sessions := Table.empty

abbrev aborted (uploadID : Bytes) : Option (Except Failure Nat × World Unit) :=
  handleAbortMultipartUpload env 0 provider uploadsDir .none none world (abort uploadID) (str "mine") (str "k")

end Sample

open Multipart.Sample

/-- The id `../hot` takes away every object of the hot tier, in any bucket. -/
theorem abort_deletes_objects : ∃ outcome, aborted (str "../hot") = some outcome ∧ outcome.1 = .ok 204 ∧
      world.fs.entry [str "data", str "hot", str "theirs", str "report"] = some (.file (str "figures")) ∧
      outcome.2.fs.entry [str "data", str "hot", str "theirs", str "report"] = none ∧
      ¬ Confined uploadsDir (str "mine") (str "k") (str "../hot") world outcome.2 := by
  have answered : (aborted (str "../hot")).map (fun outcome =>
      (outcome.1, outcome.2.fs.entry [str "data", str "hot", str "theirs", str "report"])) =
      some (.ok 204, none) := by decide +kernel
  obtain ⟨outcome, ran, seen⟩ := map_eq_some_iff.mp answered
  obtain ⟨status, after⟩ := Prod.mk.inj seen
  refine ⟨outcome, ran, status, (fun before => ⟨before, after, fun confined => ?_⟩) (by decide +kernel)⟩
  have changed : outcome.2.fs.entry [str "data", str "hot", str "theirs", str "report"] ≠
      world.fs.entry [str "data", str "hot", str "theirs", str "report"] := by
    rw [after, before]
    nofun
  obtain ⟨registered, -⟩ := confined _ changed
  obtain ⟨_, recorded, -⟩ := registered
  cases recorded

/-- The user's own upload is registered, and its directory holds one part. -/
theorem own_upload_aborted : requireIdentity env 0 provider world.logins (abort (str "42")) (str "write")
        (str "mine") (str "k") = some (.ok bob, []) ∧
      ∀ faults dbFault, ∃ outcome, handleAbortMultipartUpload env 0 provider uploadsDir faults dbFault world
          (abort (str "42")) (str "mine") (str "k") = some outcome ∧
          Confined uploadsDir (str "mine") (str "k") ((abort (str "42")).queryGet (str "uploadId"))
            world outcome.2 := by
  have named : (abort (str "42")).queryGet (str "uploadId") = str "42" := by decide +kernel
  refine (fun authorised => ⟨authorised, ?_⟩) (by decide +kernel)
  refine (abort_confined_iff uploadsDir (by decide) authorised).mpr (.inr (.inr ?_))
  rw [named]
  refine ⟨⟨_, rfl, rfl, rfl, rfl⟩, by unfold Path.IsName; decide, by decide +kernel, ?_⟩
  intro path data below file
  have stored : ∀ e ∈ files.nodes.entries, uploadsDir ++ [str "42"] <+: e.1 → e.2 ≠ .dir →
      e.1 = getPartPath uploadsDir (str "42") 1 := by decide +kernel
  have visited := mem_walk below file
  exact ⟨1, .inl (stored (path, .file data) (List.mem_filter.mp visited).1 below nofun)⟩

end CipherLake.Multipart

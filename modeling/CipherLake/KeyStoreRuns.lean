import CipherLake.KeyStore
import CipherLake.Lib.Runs
import CipherLake.Lib.GoStrings

/-! What `KeyStoreService` answers over whole histories of stores, deletions and
restarts, against the keys whose storing was acknowledged. Memory, directory and
acknowledged keys agree as long as every bucket is a plain directory name, all
texts survive their encoding, and no write fails over a key that is there. -/
namespace CipherLake.KeyStore
open Lib Storage Lib.Runs List Table FileTree Option
open Coordinator (EncryptedDEK)

/-! ### Names -/

theorem isName_key {name : Bytes} (plain : 47 ∉ name) {ending : Bytes} (long : 2 < ending.length)
    (plainEnding : 47 ∉ ending) : Path.IsName (name ++ ending) := by
  have size : 2 < (name ++ ending).length := by
    rw [length_append]
    omega
  refine ⟨?_, ?_, ?_, by simp [plain, plainEnding]⟩ <;>
  · intro same
    rw [same] at size
    simp [str] at size

section
variable (objectKey : Bytes)
include objectKey

theorem slash_notMem_keyFileName : 47 ∉ keyFileName objectKey := by
  rw [keyFileName, encodeObjectKey, mem_append]
  exact not_or.mpr ⟨Base64.slash_notMem_encode objectKey, by decide⟩

theorem isName_keyFileName : Path.IsName (keyFileName objectKey) :=
  isName_key (Base64.slash_notMem_encode objectKey) (by decide) (by decide)

theorem isName_tmpFile : Path.IsName (keyFileName objectKey ++ str ".tmp") :=
  isName_key (slash_notMem_keyFileName objectKey) (by decide) (by decide)

theorem ext_keyFileName : Lib.Path.ext (keyFileName objectKey) = str ".key" :=
  Path.ext_append (encodeObjectKey objectKey) (by decide)

theorem ext_tmpFile : Lib.Path.ext (keyFileName objectKey ++ str ".tmp") ≠ str ".key" := by
  have tmp : Lib.Path.ext (keyFileName objectKey ++ str ".tmp") = str ".tmp" :=
    Path.ext_append (keyFileName objectKey) (by decide)
  rw [tmp]
  decide

end

theorem keyFileName_injective : Function.Injective keyFileName := fun _ _ same =>
  Function.LeftInverse.injective Base64.decode_encode (append_cancel_right same)

theorem keyFile_eq (dataPath : Path) {bucket : Bytes} (isName : Path.IsName bucket) (objectKey : Bytes) :
    keyFile dataPath bucket objectKey = dataPath ++ [bucket, keyFileName objectKey] := by
  rw [keyFile, Path.join_name _ isName, Path.join_name _ (isName_keyFileName objectKey), append_assoc]
  rfl

theorem makeKeyIndex_inj {bucket bucket' objectKey objectKey' : Bytes} (plain : Path.IsName bucket)
    (plain' : Path.IsName bucket') :
    makeKeyIndex bucket objectKey = makeKeyIndex bucket' objectKey' ↔ bucket = bucket' ∧ objectKey = objectKey' := by
  have slash (a b : Bytes) : makeKeyIndex a b = a ++ 47 :: b := by simp [makeKeyIndex, str]
  rw [slash, slash, append_separator_inj plain.2.2.2 plain'.2.2.2]

/-! ### The directory -/

/-- Below the data directory lie only directories, and in these only files. -/
structure Shaped (dataPath : Path) (t : FileTree) : Prop where
  root : t.entry dataPath = some .dir
  tops : ∀ name value, t.entry (dataPath ++ [name]) = some value → value = .dir
  leaves : ∀ bucket name value, t.entry (dataPath ++ [bucket, name]) = some value → ∃ data, value = .file data

/-- The same key files. -/
def SameKeys (dataPath : Path) (t t' : FileTree) : Prop :=
  ∀ bucket name, Lib.Path.ext name = str ".key" →
    t'.entry (dataPath ++ [bucket, name]) = t.entry (dataPath ++ [bucket, name])

/-- The same key files, but for the one under this name. -/
def SameBut (dataPath : Path) (bucket target : Bytes) (new : Option Entry) (t t' : FileTree) : Prop :=
  ∀ bucket' name, Lib.Path.ext name = str ".key" → t'.entry (dataPath ++ [bucket', name]) =
    if bucket' = bucket ∧ name = target then new else t.entry (dataPath ++ [bucket', name])

section Directory

variable {J : Json} {faults : Faults} {dataPath : Path} {t t' t'' : FileTree} {bucket name : Bytes} {entry : KeyEntry}

theorem SameKeys.trans (first : SameKeys dataPath t t') (second : SameKeys dataPath t' t'') :
    SameKeys dataPath t t'' := fun bucket name isKey => (second bucket name isKey).trans (first bucket name isKey)

theorem SameBut.after {new : Option Entry} (same : SameKeys dataPath t t')
    (placed : SameBut dataPath bucket name new t' t'') : SameBut dataPath bucket name new t t'' := by
  intro bucket' name' isKey
  rw [placed bucket' name' isKey, same bucket' name' isKey]

theorem leaf_grown (grown : t.Grown t' (dataPath ++ [bucket])) (bucket' name : Bytes) :
    t'.entry (dataPath ++ [bucket', name]) = t.entry (dataPath ++ [bucket', name]) := by
  rcases grown (dataPath ++ [bucket', name]) with kept | ⟨-, -, onWay⟩
  · exact kept
  · have shorter := onWay.length_le
    simp at shorter

section
variable (shaped : Shaped dataPath t)
include shaped

theorem Shaped.grown (grown : t.Grown t' (dataPath ++ [bucket])) : Shaped dataPath t' ∧ SameKeys dataPath t t' := by
  refine ⟨⟨?_, fun name value held => ?_, fun bucket' name value held => ?_⟩, fun bucket' name _ => leaf_grown grown _ _⟩
  · rcases grown dataPath with kept | ⟨absent, -, -⟩
    · exact kept.trans shaped.root
    · cases absent.symm.trans shaped.root
  · rcases grown (dataPath ++ [name]) with kept | ⟨-, made, -⟩
    · exact shaped.tops name value (kept ▸ held)
    · exact (some.inj (made.symm.trans held)).symm
  · exact shaped.leaves bucket' name value (leaf_grown grown bucket' name ▸ held)

theorem Shaped.leaf_not_dir (bucket name : Bytes) : t.entry (dataPath ++ [bucket, name]) ≠ some .dir := by
  intro isDir
  obtain ⟨_, ⟨⟩⟩ := shaped.leaves bucket name .dir isDir

/-- Nothing but files two levels down changes. -/
theorem Shaped.of_leaves (above : ∀ path, path.length < 2 → t'.entry (dataPath ++ path) = t.entry (dataPath ++ path))
    (leaves : ∀ bucket name value, t'.entry (dataPath ++ [bucket, name]) = some value → ∃ data, value = .file data) :
    Shaped dataPath t' := by
  refine ⟨?_, fun name value held => ?_, leaves⟩
  · have kept := above [] (by decide)
    rw [append_nil] at kept
    exact kept.trans shaped.root
  · exact shaped.tops name value (above [name] (by simp) ▸ held)

end

theorem above_leaf {path : Path} (short : path.length < 2) : dataPath ++ path ≠ dataPath ++ [bucket, name] := by
  intro same
  rw [append_cancel_left same] at short
  simp at short

/-- One file is all that changes. -/
theorem Shaped.leaf (shaped : Shaped dataPath t)
    (others : ∀ other, other ≠ dataPath ++ [bucket, name] → t'.entry other = t.entry other)
    (here : ∀ value, t'.entry (dataPath ++ [bucket, name]) = some value → ∃ data, value = .file data) :
    Shaped dataPath t' := by
  refine shaped.of_leaves (fun path short => others _ (above_leaf short)) fun bucket' name' value held => ?_
  by_cases same : dataPath ++ [bucket', name'] = dataPath ++ [bucket, name]
  · exact here value (same ▸ held)
  · rw [others _ same] at held
    exact shaped.leaves bucket' name' value held

theorem sameKeys_of_other (notKey : Lib.Path.ext name ≠ str ".key")
    (others : ∀ other, other ≠ dataPath ++ [bucket, name] → t'.entry other = t.entry other) :
    SameKeys dataPath t t' := by
  intro bucket' name' isKey
  refine others _ fun same => notKey ?_
  have names := append_cancel_left same
  cases names
  exact isKey

/-- A new file is put in place of another one, from a name that is no key's. -/
theorem Shaped.renamed (shaped : Shaped dataPath t) {source target data : Bytes} (notKey : Lib.Path.ext source ≠ str ".key")
    (entries : ∀ other, t'.entry other = if other = dataPath ++ [bucket, target] then some (.file data)
      else if other = dataPath ++ [bucket, source] then none else t.entry other) :
    Shaped dataPath t' ∧ SameBut dataPath bucket target (some (.file data)) t t' := by
  have leaf (bucket' name : Bytes) : t'.entry (dataPath ++ [bucket', name]) =
      if bucket' = bucket ∧ name = target then some (.file data)
      else if bucket' = bucket ∧ name = source then none else t.entry (dataPath ++ [bucket', name]) := by
    rw [entries]
    simp [append_cancel_left_eq, cons.injEq]
  refine ⟨shaped.of_leaves (fun path short => ?_) fun bucket' name value held => ?_, fun bucket' name isKey => ?_⟩
  · rw [entries, if_neg (above_leaf short), if_neg (above_leaf short)]
  · rw [leaf] at held
    split at held
    · exact ⟨data, (some.inj held).symm⟩
    · split at held
      · cases held
      · exact shaped.leaves bucket' name value held
  · have other : ¬ (bucket' = bucket ∧ name = source) := by
      rintro ⟨-, rfl⟩
      exact notKey isKey
    rw [leaf, if_neg other]

/-- A file is written, or something of it, or nothing. -/
theorem writeFile_cases (faults : Faults) (t : FileTree) (path : Path) (data : Bytes) :
    ∃ answer t', writeFile faults t path data = (answer, t') ∧
      (∀ other, other ≠ path → t'.entry other = t.entry other) ∧
      (t'.entry path = t.entry path ∨ ∃ part, t'.entry path = some (.file part)) ∧
      (answer = .ok () → t'.entry path = some (.file data)) ∧
      (answer ≠ .ok () → faults.create = none → (∃ t', t.create path = (.ok (), t')) → faults.write ≠ none) := by
  unfold writeFile
  cases faults.create with
  | some e => exact ⟨_, t, rfl, fun _ _ => rfl, .inl rfl, by rintro ⟨⟩, by rintro - ⟨⟩⟩
  | none =>
    rcases t.create_cases path with ⟨e, failed⟩ | ⟨t', created, entries⟩
    · rw [failed]
      exact ⟨_, t, rfl, fun _ _ => rfl, .inl rfl, by rintro ⟨⟩, by rintro - - ⟨_, ⟨⟩⟩⟩
    rw [created]
    have fresh : t'.entry path = some (.file []) := by rw [entries, if_pos rfl]
    have appended (bytes : Bytes) := entry_append fresh bytes
    cases faults.write with
    | some fault =>
      refine ⟨_, _, rfl, fun other apart => ?_, .inr ⟨_, by rw [appended, if_pos rfl]⟩, by rintro ⟨⟩,
        by rintro - - - ⟨⟩⟩
      rw [appended, if_neg apart, entries, if_neg apart]
    | none =>
      refine ⟨_, _, rfl, fun other apart => ?_, .inr ⟨_, by rw [appended, if_pos rfl]⟩, fun _ => ?_,
        fun failed => absurd rfl failed⟩
      · rw [appended, if_neg apart, entries, if_neg apart]
      · rw [appended, if_pos rfl, nil_append]

/-- Nothing goes wrong while a key is written. -/
structure Faults.Quiet (faults : Faults) : Prop where
  mkdir : ∀ path, faults.mkdir path = none
  create : faults.create = none
  write : faults.write = none
  rename : faults.rename = none

theorem Shaped.passable (shaped : Shaped dataPath t) {mkdir : Path → Option Errno} (quiet : ∀ path, mkdir path = none)
    (bucket : Bytes) : t.Passable mkdir (dataPath ++ [bucket]) := by
  intro above onWay
  refine ⟨fun data isFile => ?_, fun _ => quiet above⟩
  by_cases whole : above = dataPath ++ [bucket]
  · cases shaped.tops bucket _ (whole ▸ isFile)
  have inside : above <+: dataPath := by
    obtain ⟨rest, same⟩ := onWay
    have last : rest ≠ [] := by
      rintro rfl
      rw [append_nil] at same
      exact whole same
    refine ⟨rest.dropLast, ?_⟩
    rw [← dropLast_append_of_ne_nil last, same, dropLast_concat]
  by_cases root : above = dataPath
  · cases isFile.symm.trans (root ▸ shaped.root)
  · cases isFile.symm.trans (entry_ancestor inside root (by rw [shaped.root]; rintro ⟨⟩))

/-- The new file stands under its name, or the key files are as they were. -/
theorem writeAtomically_cases (faults : Faults) (shaped : Shaped dataPath t)
    (inside : t.entry (dataPath ++ [bucket]) = some .dir) {source : Bytes} (notKey : Lib.Path.ext source ≠ str ".key")
    (target data : Bytes) :
    (∃ e t', writeAtomically faults t (dataPath ++ [bucket, source]) (dataPath ++ [bucket, target]) data = (.error e, t') ∧
        Shaped dataPath t' ∧ SameKeys dataPath t t' ∧ ¬ faults.Quiet) ∨
      ∃ t', writeAtomically faults t (dataPath ++ [bucket, source]) (dataPath ++ [bucket, target]) data = (.ok (), t') ∧
        Shaped dataPath t' ∧ SameBut dataPath bucket target (some (.file data)) t t' := by
  have parent (name : Bytes) : (dataPath ++ [bucket, name]).dropLast = dataPath ++ [bucket] := by simp
  obtain ⟨answer, written, wrote, others, here, whole, failing⟩ :=
    writeFile_cases faults t (dataPath ++ [bucket, source]) data
  have shaped' : Shaped dataPath written := by
    refine shaped.leaf others fun value held => ?_
    rcases here with kept | ⟨part, isPart⟩
    · exact shaped.leaves _ _ value (kept ▸ held)
    · exact ⟨part, some.inj (held.symm.trans isPart)⟩
  have same : SameKeys dataPath t written := sameKeys_of_other notKey others
  unfold writeAtomically
  simp only [wrote]
  cases answer with
  | error e =>
    refine .inl ⟨_, written, rfl, shaped', same, fun quiet => ?_⟩
    exact failing (by rintro ⟨⟩) quiet.create ⟨_, by rw [FileTree.create, if_neg (shaped.leaf_not_dir bucket source),
      parent, if_neg (not_not.mpr inside)]⟩ quiet.write
  | ok =>
    cases renames : faults.rename with
    | some e =>
      refine .inl ⟨_, written, rfl, shaped', same, fun quiet => ?_⟩
      cases renames.symm.trans quiet.rename
    | none =>
      have inside' : written.entry (dataPath ++ [bucket]) = some .dir := (others _ (by simp)).trans inside
      obtain ⟨t', renamed, entries⟩ := rename_file (whole rfl) (by simp)
        ((parent target).symm ▸ inside') (shaped'.leaf_not_dir bucket target)
      obtain ⟨shaped'', keys⟩ := shaped'.renamed notKey entries
      simp only [renamed]
      exact .inr ⟨t', rfl, shaped'', keys.after same⟩

/-- What is left of an attempt to write a key: the key files as they were, or with
the new one. -/
theorem persistKey_cases (J : Json) (faults : Faults) (shaped : Shaped dataPath t) (isName : Path.IsName entry.bucket) :
    (∃ e t', persistKey J faults dataPath t entry = (.error e, t') ∧ Shaped dataPath t' ∧ SameKeys dataPath t t' ∧
        ¬ (faults.Quiet ∧ ∃ data, J.marshal entry = .ok data)) ∨
      ∃ t' data, persistKey J faults dataPath t entry = (.ok (), t') ∧ Shaped dataPath t' ∧
        J.marshal entry = .ok data ∧
        SameBut dataPath entry.bucket (keyFileName entry.objectKey) (some (.file data)) t t' := by
  have inBucket {name : Bytes} (isName : Path.IsName name) :
      Path.join (dataPath ++ [entry.bucket]) name = dataPath ++ [entry.bucket, name] := by
    rw [Path.join_name _ isName, append_assoc]
    rfl
  unfold persistKey
  simp only [Path.join_name _ isName, inBucket (isName_tmpFile entry.objectKey),
    inBucket (isName_keyFileName entry.objectKey)]
  obtain ⟨grown, reached⟩ := t.mkdirAll_grown faults.mkdir [] (dataPath ++ [entry.bucket]) t.entry_root
  have passes := (t.mkdirAll_ok_iff faults.mkdir [] (dataPath ++ [entry.bucket]) t.entry_root).mpr
  cases made : t.mkdirAll faults.mkdir [] (dataPath ++ [entry.bucket]) with
  | mk answer made_t =>
  rw [made] at grown reached passes
  obtain ⟨shaped', same⟩ := shaped.grown grown
  cases answer with
  | error e =>
    refine .inl ⟨_, made_t, rfl, shaped', same, fun both => ?_⟩
    cases passes (shaped.passable both.1.mkdir entry.bucket)
  | ok =>
    cases marshalled : J.marshal entry with
    | error e =>
      refine .inl ⟨_, made_t, rfl, shaped', same, ?_⟩
      rintro ⟨-, data, ⟨⟩⟩
    | ok data =>
      rcases writeAtomically_cases faults shaped' (reached rfl) (ext_tmpFile entry.objectKey)
        (keyFileName entry.objectKey) data with
        ⟨e, t', failed, shaped'', same', loud⟩ | ⟨t', placed, shaped'', keys⟩
      · exact .inl ⟨e, t', failed, shaped'', same.trans same', fun both => loud both.1⟩
      · exact .inr ⟨t', data, placed, shaped'', rfl, keys.after same⟩

end Directory

/-! ### Histories -/

/-- What `GetKey` was to answer, and what it did. -/
structure Answer where
  due : Except Bytes EncryptedDEK
  given : Option (Except Bytes EncryptedDEK)

/-- The service with the keys whose storing was acknowledged last and whose deletion
was not, and what it has answered. -/
structure State where
  world : World
  acknowledged : Bytes → Bytes → Option EncryptedDEK
  answers : List Answer
  broken : Bool

inductive Event where
  | store (bucket objectKey : Bytes) (encryptedDEK : Option EncryptedDEK) (objectSize : Int) (faults : Faults)
    (random : Bytes) (now : Int)
  | get (bucket objectKey : Bytes) (fault : Option Errno)
  | delete (bucket objectKey : Bytes) (fault : Option Errno)
  | restart

def assign (acknowledged : Bytes → Bytes → Option EncryptedDEK) (bucket objectKey : Bytes) (value : Option EncryptedDEK) :
    Bytes → Bytes → Option EncryptedDEK :=
  fun bucket' objectKey' => if bucket' = bucket ∧ objectKey' = objectKey then value else acknowledged bucket' objectKey'

def State.due (s : State) (bucket objectKey : Bytes) : Except Bytes EncryptedDEK :=
  match s.acknowledged bucket objectKey with
  | some dek => .ok dek
  | none => .error (str "key not found for " ++ bucket ++ str "/" ++ objectKey)

def State.initial (dataPath : Path) (disk : FileTree) : State :=
  ⟨⟨dataPath, Table.empty, disk⟩, fun _ _ => none, [], false⟩

/-- One call, or the end of the process and a new one over the same files. A key
is acknowledged with the id it was given. -/
def next (J : Json) (s : State) : Event → Option State
  | .store bucket objectKey encryptedDEK objectSize faults random now =>
    match storeKey J faults random now s.world bucket objectKey encryptedDEK objectSize with
    | (none, world) => some { s with world, broken := true }
    | (some (.error _), world) => some { s with world }
    | (some (.ok keyID), world) =>
      let stored := encryptedDEK.map fun dek => { dek with keyID }
      some { s with world, acknowledged := assign s.acknowledged bucket objectKey stored }
  | .get bucket objectKey fault =>
    let (given, world) := getKey J fault s.world bucket objectKey
    some { s with world, answers := ⟨s.due bucket objectKey, given⟩ :: s.answers }
  | .delete bucket objectKey fault =>
    match deleteKey fault s.world bucket objectKey with
    | (.error _, world) => some { s with world }
    | (.ok (), world) => some { s with world, acknowledged := assign s.acknowledged bucket objectKey none }
  | .restart =>
    match newKeyStoreService J (fun _ => none) (fun _ => none) s.world.dataPath s.world.disk with
    | (.error _, _) => some { s with broken := true }
    | (.ok world, _) => some { s with world }

/-- No store has panicked, every restart has come up, and every `GetKey` has
answered as it had to. -/
def Faithful (s : State) : Prop := s.broken = false ∧ ∀ answer ∈ s.answers, answer.given = some answer.due

/-- A text that a JSON encoding leaves as it is. -/
def Utf8 (text : Bytes) : Prop := jsonString text = text

instance decidableUtf8 (text : Bytes) : Decidable (Utf8 text) := inferInstanceAs (Decidable (jsonString text = text))

/-- The bucket is a name for a directory and the texts of a new key are UTF-8.
A store or a deletion fails only where there is no key. -/
def Orderly (J : Json) (s : State) : Event → Prop
  | .store bucket objectKey encryptedDEK objectSize faults random now =>
    Path.IsName bucket ∧ Utf8 bucket ∧ Utf8 objectKey ∧
      ∃ dek, encryptedDEK = some dek ∧ Utf8 dek.keyID ∧ Utf8 dek.algorithm ∧
        (s.world.keys.get (makeKeyIndex bucket objectKey) ≠ none →
          faults.Quiet ∧ ∃ data, J.marshal (newEntry random now bucket objectKey dek objectSize) = .ok data)
  | .get bucket _ _ => Path.IsName bucket
  | .delete bucket objectKey fault =>
    Path.IsName bucket ∧ (s.world.keys.get (makeKeyIndex bucket objectKey) ≠ none → fault = none)
  | .restart => True

/-- Memory, files and acknowledged keys agree. -/
structure Agrees (J : Json) (w : World) (acknowledged : Bytes → Bytes → Option EncryptedDEK) : Prop where
  shaped : Shaped w.dataPath w.disk
  memory : ∀ bucket objectKey, Path.IsName bucket →
    (w.keys.get (makeKeyIndex bucket objectKey)).map KeyEntry.dek = acknowledged bucket objectKey
  named : ∀ bucket objectKey dek, acknowledged bucket objectKey = some dek → Path.IsName bucket
  kept : ∀ bucket objectKey dek, acknowledged bucket objectKey = some dek →
    ∃ data, w.disk.entry (w.dataPath ++ [bucket, keyFileName objectKey]) = some (.file data)
  held : ∀ bucket name data, Lib.Path.ext name = str ".key" →
    w.disk.entry (w.dataPath ++ [bucket, name]) = some (.file data) →
    ∃ entry, name = keyFileName entry.objectKey ∧ J.unmarshal data = .ok entry ∧ entry.bucket = bucket ∧
      acknowledged bucket entry.objectKey = some entry.dek

section Histories

variable {J : Json} {w : World} {acknowledged : Bytes → Bytes → Option EncryptedDEK} {bucket objectKey : Bytes}

theorem assign_same (value : Option EncryptedDEK) : assign acknowledged bucket objectKey value bucket objectKey = value :=
  if_pos ⟨rfl, rfl⟩

theorem assign_other {bucket' objectKey' : Bytes} (apart : ¬ (bucket' = bucket ∧ objectKey' = objectKey))
    (value : Option EncryptedDEK) :
    assign acknowledged bucket objectKey value bucket' objectKey' = acknowledged bucket' objectKey' := if_neg apart

theorem Agrees.initial {dataPath : Path} {disk : FileTree} (isDir : disk.entry dataPath = some .dir)
    (free : disk.occupied dataPath = false) : Agrees J ⟨dataPath, Table.empty, disk⟩ fun _ _ => none := by
  have nothing (rest : Path) (below : rest ≠ []) : disk.entry (dataPath ++ rest) = none := by
    by_contra held
    have occupied := (disk.occupied_iff dataPath).mpr ⟨_, prefix_append dataPath rest, by simpa using below, held⟩
    cases free.symm.trans occupied
  refine ⟨⟨isDir, fun name value held => ?_, fun bucket name value held => ?_⟩, fun _ _ _ => rfl, by rintro _ _ _ ⟨⟩,
    by rintro _ _ _ ⟨⟩, fun bucket name data _ held => ?_⟩
  · cases (nothing [name] (by simp)).symm.trans held
  · cases (nothing [bucket, name] (by simp)).symm.trans held
  · cases (nothing [bucket, name] (by simp)).symm.trans held

section
variable (agrees : Agrees J w acknowledged)

include agrees

theorem Agrees.absent (isName : Path.IsName bucket) :
    w.keys.get (makeKeyIndex bucket objectKey) = none ↔ acknowledged bucket objectKey = none := by
  rw [← agrees.memory bucket objectKey isName, map_eq_none_iff]

/-- There is no file for a key that nobody has acknowledged. -/
theorem Agrees.fileless (absent : acknowledged bucket objectKey = none) :
    w.disk.entry (w.dataPath ++ [bucket, keyFileName objectKey]) = none := by
  by_contra some_file
  obtain ⟨value, held⟩ := ne_none_iff_exists'.mp some_file
  obtain ⟨data, rfl⟩ := agrees.shaped.leaves bucket _ value held
  obtain ⟨_, isKey, -, -, known⟩ := agrees.held bucket _ data (ext_keyFileName objectKey) held
  rw [← keyFileName_injective isKey, absent] at known
  cases known

variable {disk : FileTree}

section
variable (isName : Path.IsName bucket)
include isName

/-- One key is put with its file, or taken away with it. -/
theorem Agrees.assigned (new : Option (KeyEntry × Bytes)) {keys : Table Bytes KeyEntry}
    (here : keys.get (makeKeyIndex bucket objectKey) = new.map (·.1))
    (others : ∀ index, makeKeyIndex bucket objectKey ≠ index → keys.get index = w.keys.get index)
    (shaped : Shaped w.dataPath disk)
    (entries : SameBut w.dataPath bucket (keyFileName objectKey) (new.map (.file ·.2)) w.disk disk) (decodes : ∀ entry data, new = some (entry, data) →
      entry.bucket = bucket ∧ entry.objectKey = objectKey ∧ J.unmarshal data = .ok entry) :
    Agrees J ⟨w.dataPath, keys, disk⟩ (assign acknowledged bucket objectKey (new.map (·.1.dek))) := by
  refine ⟨shaped, fun bucket' objectKey' isName' => ?_, fun bucket' objectKey' dek known => ?_,
    fun bucket' objectKey' dek known => ?_, fun bucket' name data isKey held => ?_⟩
  · by_cases index : makeKeyIndex bucket objectKey = makeKeyIndex bucket' objectKey'
    · obtain ⟨rfl, rfl⟩ := (makeKeyIndex_inj isName isName').mp index
      rw [assign_same, here, Option.map_map]
      rfl
    · have apart : ¬ (bucket' = bucket ∧ objectKey' = objectKey) := by
        rintro ⟨rfl, rfl⟩
        exact index rfl
      rw [assign_other apart, others _ index]
      exact agrees.memory bucket' objectKey' isName'
  · by_cases same : bucket' = bucket ∧ objectKey' = objectKey
    · exact same.1 ▸ isName
    · rw [assign_other same] at known
      exact agrees.named bucket' objectKey' dek known
  · rw [entries bucket' _ (ext_keyFileName objectKey')]
    by_cases same : bucket' = bucket ∧ objectKey' = objectKey
    · obtain ⟨rfl, rfl⟩ := same
      rw [assign_same] at known
      obtain ⟨⟨entry, data⟩, rfl, -⟩ := map_eq_some_iff.mp known
      exact ⟨data, if_pos ⟨rfl, rfl⟩⟩
    · rw [if_neg fun both => same ⟨both.1, keyFileName_injective both.2⟩]
      rw [assign_other same] at known
      exact agrees.kept bucket' objectKey' dek known
  · rw [entries bucket' name isKey] at held
    split at held
    · next same =>
      obtain ⟨rfl, rfl⟩ := same
      obtain ⟨⟨entry, data⟩, rfl, ⟨⟩⟩ := map_eq_some_iff.mp held
      obtain ⟨rfl, rfl, decoded⟩ := decodes entry data rfl
      exact ⟨entry, rfl, decoded, rfl, assign_same _⟩
    · next other =>
      obtain ⟨entry, rfl, decoded, isBucket, known⟩ := agrees.held bucket' name data isKey held
      refine ⟨entry, rfl, decoded, isBucket, ?_⟩
      rw [assign_other fun same => other ⟨same.1, congrArg keyFileName same.2⟩, known]

/-- Memory and files without a key that nobody has acknowledged. -/
theorem Agrees.untouched (absent : acknowledged bucket objectKey = none) {keys : Table Bytes KeyEntry}
    (here : keys.get (makeKeyIndex bucket objectKey) = none)
    (others : ∀ index, makeKeyIndex bucket objectKey ≠ index → keys.get index = w.keys.get index)
    (shaped : Shaped w.dataPath disk) (same : SameKeys w.dataPath w.disk disk) :
    Agrees J ⟨w.dataPath, keys, disk⟩ acknowledged := by
  have unassigned : assign acknowledged bucket objectKey none = acknowledged := by
    funext bucket' objectKey'
    unfold assign
    split
    · next own => rw [own.1, own.2, absent]
    · rfl
  rw [← unassigned]
  refine agrees.assigned isName none here others shaped (fun bucket' name isKey => ?_) nofun
  rw [same bucket' name isKey]
  split
  · next own =>
    obtain ⟨rfl, rfl⟩ := own
    exact agrees.fileless absent
  · rfl

theorem Agrees.deleted (entries : ∀ other, disk.entry other =
      if other = w.dataPath ++ [bucket, keyFileName objectKey] then none else w.disk.entry other) :
    Agrees J ⟨w.dataPath, w.keys.delete (makeKeyIndex bucket objectKey), disk⟩
      (assign acknowledged bucket objectKey none) := by
  refine agrees.assigned isName none (get_delete_same _ _) (fun _ apart => get_delete_ne _ apart) ?_
    (fun bucket' name _ => ?_) (by rintro _ _ ⟨⟩)
  · refine agrees.shaped.leaf (fun other apart => (entries other).trans (if_neg apart)) fun value held => ?_
    rw [entries, if_pos rfl] at held
    cases held
  · rw [entries]
    simp only [append_cancel_left_eq, cons.injEq, and_true]
    rfl

end

end

/-! ### Restarts -/

theorem mem_bucketEntries {t : FileTree} {bucketPath : Path} (isDir : t.entry bucketPath = some .dir)
    {entry : KeyEntry} :
    entry ∈ bucketEntries J (fun _ => none) t bucketPath ↔ ∃ name data, Lib.Path.ext name = str ".key" ∧
      t.entry (bucketPath ++ [name]) = some (.file data) ∧ J.unmarshal data = .ok entry := by
  obtain ⟨_, read, members⟩ := readDir_dir isDir
  simp only [bucketEntries, read, mem_filterMap, ne_eq, Prod.exists, members]
  constructor
  · rintro ⟨name, value, held, found⟩
    split at found
    · cases found
    rename_i isKey
    cases value with
    | dir =>
      simp only [FileTree.readFile, held] at found
      cases found
    | file data =>
      simp only [FileTree.readFile, held] at found
      refine ⟨name, data, not_not.mp isKey, held, ?_⟩
      cases decoded : J.unmarshal data with
      | error e =>
        rw [decoded] at found
        cases found
      | ok entry' =>
        rw [decoded] at found
        cases found
        rfl
  · rintro ⟨name, data, isKey, held, decoded⟩
    refine ⟨name, .file data, held, ?_⟩
    rw [if_neg (not_not.mpr isKey)]
    simp only [FileTree.readFile, held, decoded]
    rfl

theorem mem_storedEntries {dataPath : Path} {t : FileTree} (shaped : Shaped dataPath t) {entry : KeyEntry} :
    entry ∈ storedEntries J (fun _ => none) dataPath t ↔ ∃ bucket name data, Lib.Path.ext name = str ".key" ∧
      t.entry (dataPath ++ [bucket, name]) = some (.file data) ∧ J.unmarshal data = .ok entry := by
  obtain ⟨listed, read, members⟩ := readDir_dir shaped.root
  have nested (bucket name : Bytes) : dataPath ++ [bucket] ++ [name] = dataPath ++ [bucket, name] := by simp
  simp only [storedEntries, read, mem_flatMap, Prod.exists, members]
  constructor
  · rintro ⟨bucket, value, held, listed⟩
    cases shaped.tops bucket value held
    obtain ⟨name, data, found⟩ := (mem_bucketEntries held).mp listed
    rw [nested] at found
    exact ⟨bucket, name, data, found⟩
  · rintro ⟨bucket, name, data, isKey, held, decoded⟩
    have above : t.entry (dataPath ++ [bucket]) = some .dir :=
      entry_ancestor ⟨[name], nested bucket name⟩ (by simp) (by rw [held]; rintro ⟨⟩)
    refine ⟨bucket, .dir, above, (mem_bucketEntries above).mpr ⟨name, data, isKey, ?_, decoded⟩⟩
    rw [nested, held]

/-- The keys are loaded as they were acknowledged. -/
theorem Agrees.loaded (agrees : Agrees J w acknowledged) {disk : FileTree}
    (same : ∀ path, disk.entry path = w.disk.entry path) :
    Agrees J ⟨w.dataPath, loadAllKeys J (fun _ => none) w.dataPath disk, disk⟩ acknowledged := by
  have shaped : Shaped w.dataPath disk := by
    refine agrees.shaped.of_leaves (fun _ _ => same _) fun bucket name value held => ?_
    exact agrees.shaped.leaves bucket name value (same _ ▸ held)
  have found {entry : KeyEntry} (listed : entry ∈ storedEntries J (fun _ => none) w.dataPath disk) :
      acknowledged entry.bucket entry.objectKey = some entry.dek := by
    obtain ⟨bucket, name, data, isKey, held, decoded⟩ := (mem_storedEntries shaped).mp listed
    obtain ⟨_, -, decoded', rfl, known⟩ := agrees.held bucket name data isKey (same _ ▸ held)
    cases decoded.symm.trans decoded'
    exact known
  refine ⟨shaped, fun bucket objectKey isName => ?_, agrees.named, fun bucket objectKey dek known => ?_,
    fun bucket name data isKey held => ?_⟩
  · rcases get_foldl_put_cases (fun entry : KeyEntry => makeKeyIndex entry.bucket entry.objectKey) id
      (storedEntries J (fun _ => none) w.dataPath disk) Table.empty (makeKeyIndex bucket objectKey) with
      ⟨entry, listed, index, loaded⟩ | ⟨none, loaded⟩
    · have known := found listed
      obtain ⟨rfl, rfl⟩ := (makeKeyIndex_inj (agrees.named _ _ _ known) isName).mp index
      rw [known]
      exact congrArg (Option.map KeyEntry.dek) loaded
    · have missing : acknowledged bucket objectKey = .none := by
        by_contra some_dek
        obtain ⟨dek, known⟩ := ne_none_iff_exists'.mp some_dek
        obtain ⟨data, held⟩ := agrees.kept bucket objectKey dek known
        obtain ⟨entry, isKey, decoded, rfl, -⟩ := agrees.held bucket _ data (ext_keyFileName objectKey) held
        refine none entry ((mem_storedEntries shaped).mpr ⟨entry.bucket, _, data, ext_keyFileName objectKey, ?_, decoded⟩) ?_
        · rw [same, held]
        · rw [keyFileName_injective isKey]
      rw [missing]
      exact congrArg (Option.map KeyEntry.dek) loaded
  · obtain ⟨data, held⟩ := agrees.kept bucket objectKey dek known
    exact ⟨data, (same _).trans held⟩
  · exact agrees.held bucket name data isKey (same _ ▸ held)

theorem newKeyStoreService_dir {dataPath : Path} {t : FileTree} (isDir : t.entry dataPath = some .dir) :
    ∃ t', newKeyStoreService J (fun _ => none) (fun _ => none) dataPath t =
        (.ok ⟨dataPath, loadAllKeys J (fun _ => none) dataPath t', t'⟩, t') ∧ ∀ path, t'.entry path = t.entry path := by
  have onWay {above : Path} (isPrefix : above <+: dataPath) : t.entry above = some .dir := by
    by_cases same : above = dataPath
    · rw [same, isDir]
    · exact entry_ancestor isPrefix same (by rw [isDir]; rintro ⟨⟩)
  have passable : t.Passable (fun _ => none) dataPath := by
    refine fun above isPrefix => ⟨fun data isFile => ?_, fun _ => rfl⟩
    cases isFile.symm.trans (onWay isPrefix)
  have made := (t.mkdirAll_ok_iff (fun _ => none) [] dataPath t.entry_root).mpr passable
  have grown := (t.mkdirAll_grown (fun _ => none) [] dataPath t.entry_root).1
  unfold newKeyStoreService
  cases ends : t.mkdirAll (fun _ => none) [] dataPath with
  | mk answer t' =>
  rw [ends] at made grown
  cases made
  refine ⟨t', rfl, fun path => ?_⟩
  rcases grown path with kept | ⟨absent, -, isPrefix⟩
  · exact kept
  · cases absent.symm.trans (onWay isPrefix)

/-! ### Steps -/

theorem newEntry_coerced {dek : EncryptedDEK} (utf8Bucket : Utf8 bucket) (utf8Key : Utf8 objectKey)
    (utf8ID : Utf8 dek.keyID) (utf8Algorithm : Utf8 dek.algorithm) (random : Bytes) (now objectSize : Int) :
    (newEntry random now bucket objectKey dek objectSize).coerced =
      newEntry random now bucket objectKey dek objectSize := by
  have id : jsonString (if dek.keyID = [] then generateKeyID random else dek.keyID) =
      if dek.keyID = [] then generateKeyID random else dek.keyID := by
    split
    · exact jsonString_ascii fun b member => Base64.ascii_encode member
    · exact utf8ID
  simp only [KeyEntry.coerced, newEntry, id, show jsonString bucket = bucket from utf8Bucket,
    show jsonString objectKey = objectKey from utf8Key, show jsonString dek.algorithm = dek.algorithm from utf8Algorithm]

variable {s s' : State}

section
variable (agrees : Agrees J s.world s.acknowledged)

include agrees

theorem getKey_due (isName : Path.IsName bucket) (fault : Option Errno) :
    getKey J fault s.world bucket objectKey = (some (s.due bucket objectKey), s.world) := by
  have memory := agrees.memory bucket objectKey isName
  unfold getKey State.due
  cases found : s.world.keys.get (makeKeyIndex bucket objectKey) with
  | some entry =>
    simp [found, ← memory]
  | none =>
    rw [found] at memory
    have missing : ∃ e, loadKey J fault s.world bucket objectKey = .error e := by
      unfold loadKey
      cases fault with
      | some e => exact ⟨_, rfl⟩
      | none =>
        simp only [FileTree.readFile, keyFile_eq _ isName, agrees.fileless memory.symm]
        exact ⟨_, rfl⟩
    obtain ⟨e, failed⟩ := missing
    simp [found, failed, ← memory]

theorem store_step {encryptedDEK : Option EncryptedDEK} {objectSize now : Int} {faults : Faults} {random : Bytes}
    (orderly : Orderly J s (.store bucket objectKey encryptedDEK objectSize faults random now))
    (stepped : next J s (.store bucket objectKey encryptedDEK objectSize faults random now) = some s') :
    Agrees J s'.world s'.acknowledged ∧ s'.answers = s.answers ∧ s'.broken = s.broken := by
  obtain ⟨isName, utf8Bucket, utf8Key, dek, rfl, utf8ID, utf8Algorithm, fails⟩ := orderly
  have whole := newEntry_coerced utf8Bucket utf8Key utf8ID utf8Algorithm random now objectSize
  simp only [next, storeKey] at stepped
  generalize made : newEntry random now bucket objectKey dek objectSize = entry at *
  have sameBucket : entry.bucket = bucket := made ▸ rfl
  have sameKey : entry.objectKey = objectKey := made ▸ rfl
  have stored : some entry.dek = some { dek with keyID := entry.keyID } := made ▸ rfl
  rcases persistKey_cases J faults agrees.shaped (sameBucket ▸ isName) with
    ⟨_, disk, failed, shaped, same, loud⟩ | ⟨disk, data, succeeded, shaped, marshalled, entries⟩
  · rw [failed] at stepped
    cases stepped
    have absent : s.world.keys.get (makeKeyIndex bucket objectKey) = none := by
      by_contra there
      exact loud (fails there)
    refine ⟨agrees.untouched isName ((agrees.absent isName).mp absent) (get_delete_same _ _) ?_ shaped same, rfl, rfl⟩
    intro index apart
    rw [get_delete_ne _ apart, get_put_ne _ _ apart]
  · rw [succeeded] at stepped
    cases stepped
    refine ⟨?_, rfl, rfl⟩
    simp only [map_some, ← stored]
    refine agrees.assigned isName (some (entry, data)) (get_put_same _ _ _)
      (fun _ apart => get_put_ne _ _ apart) shaped (sameBucket ▸ sameKey ▸ entries) ?_
    rintro _ _ ⟨⟩
    exact ⟨sameBucket, sameKey, whole ▸ J.inverse entry data marshalled⟩

theorem delete_step {fault : Option Errno} (orderly : Orderly J s (.delete bucket objectKey fault))
    (stepped : next J s (.delete bucket objectKey fault) = some s') :
    Agrees J s'.world s'.acknowledged ∧ s'.answers = s.answers ∧ s'.broken = s.broken := by
  obtain ⟨isName, fails⟩ := orderly
  have emptied (absent : s.acknowledged bucket objectKey = none) :
      Agrees J { s.world with keys := s.world.keys.delete (makeKeyIndex bucket objectKey) } s.acknowledged :=
    agrees.untouched isName absent (get_delete_same _ _) (fun _ apart => get_delete_ne _ apart)
      agrees.shaped fun _ _ _ => rfl
  simp only [next, deleteKey, deleteKeyFile, keyFile_eq _ isName] at stepped
  cases fault with
  | some e =>
    cases stepped
    have absent : s.world.keys.get (makeKeyIndex bucket objectKey) = none := by
      by_contra there
      cases fails there
    exact ⟨emptied ((agrees.absent isName).mp absent), rfl, rfl⟩
  | none =>
    rcases s.world.disk.remove_cases (s.world.dataPath ++ [bucket, keyFileName objectKey]) with
      ⟨e, failed⟩ | ⟨disk, removed, -, entries⟩
    · rw [failed] at stepped
      cases stepped
      have absent : s.acknowledged bucket objectKey = none := by
        by_contra known
        obtain ⟨dek, isDek⟩ := ne_none_iff_exists'.mp known
        obtain ⟨_, held⟩ := agrees.kept bucket objectKey dek isDek
        obtain ⟨disk, removed, -⟩ := remove_file held
        cases failed.symm.trans removed
      exact ⟨emptied absent, rfl, rfl⟩
    · rw [removed] at stepped
      cases stepped
      exact ⟨agrees.deleted isName entries, rfl, rfl⟩

end

theorem faithful_step {event : Event} (stepped : next J s event = some s') (agrees : Agrees J s.world s.acknowledged)
    (faithful : Faithful s) (orderly : Orderly J s event) : Agrees J s'.world s'.acknowledged ∧ Faithful s' := by
  cases event with
  | store bucket objectKey encryptedDEK objectSize faults random now =>
    obtain ⟨after, answers, broken⟩ := store_step agrees orderly stepped
    exact ⟨after, broken.trans faithful.1, answers ▸ faithful.2⟩
  | get bucket objectKey fault =>
    simp only [next, getKey_due agrees orderly fault] at stepped
    cases stepped
    exact ⟨agrees, faithful.1, forall_mem_cons.mpr ⟨rfl, faithful.2⟩⟩
  | delete bucket objectKey fault =>
    obtain ⟨after, answers, broken⟩ := delete_step agrees orderly stepped
    exact ⟨after, broken.trans faithful.1, answers ▸ faithful.2⟩
  | restart =>
    obtain ⟨_, started, same⟩ := newKeyStoreService_dir (J := J) agrees.shaped.root
    simp only [next, started] at stepped
    cases stepped
    exact ⟨agrees.loaded same, faithful⟩

end Histories

/-- Over an empty directory, in every orderly history, `GetKey` answers with what was
acknowledged, and nothing panics. -/
theorem acknowledged_keys_answered (J : Json) (dataPath : Path) (disk : FileTree)
    (isDir : disk.entry dataPath = some .dir) (free : disk.occupied dataPath = false) (events : List Event)
    (orderly : Throughout (next J) (Orderly J) (.initial dataPath disk) events) :
    Always (next J) Faithful (.initial dataPath disk) events := by
  have always : Always (next J) (fun s => Agrees J s.world s.acknowledged ∧ Faithful s) (.initial dataPath disk) events := by
    refine Throughout.always ?_ ⟨Agrees.initial isDir free, rfl, by rintro _ ⟨⟩⟩ orderly
    rintro event - s s' stepped ⟨agrees, faithful⟩ met
    exact faithful_step stepped agrees faithful met
  exact always.mono fun s kept => kept.2

namespace Sample

/-- Midnight at the start of 2026. -/
def now : Int := 1767225600000000000

def dek (encryptedKey : Bytes) : EncryptedDEK := ⟨encryptedKey, str "ECIES-P256-AES-256-GCM", str "id", 1⟩

def entry (encryptedKey : Bytes) : KeyEntry := newEntry [] now (str "b") (str "k") (dek encryptedKey) 5

def text (encryptedKey : String) : Bytes :=
  str "\x7b\"key_id\":\"id\",\"bucket\":\"b\",\"object_key\":\"k\",\"encrypted_key\":\"" ++ str encryptedKey ++
    str "\",\"algorithm\":\"ECIES-P256-AES-256-GCM\",\"key_version\":1," ++
    str "\"created_at\":\"2026-01-01T00:00:00Z\",\"object_size\":5\x7d"

def marshal (e : KeyEntry) : Except Bytes Bytes :=
  if e = entry [1, 2] then .ok (text "AQI=")
  else if e = entry [3, 4] then .ok (text "AwQ=")
  else .error (str "json")

def unmarshal (data : Bytes) : Except Bytes KeyEntry :=
  if data = text "AQI=" then .ok (entry [1, 2])
  else if data = text "AwQ=" then .ok (entry [3, 4])
  else .error (str "json")

theorem unmarshal_marshal (e : KeyEntry) (data : Bytes) (marshalled : marshal e = .ok data) :
    unmarshal data = .ok e.coerced := by
  unfold marshal at marshalled
  split at marshalled
  · next first =>
    cases marshalled
    rw [first]
    decide +kernel
  · split at marshalled
    · next second =>
      cases marshalled
      rw [second]
      decide +kernel
    · cases marshalled

/-- The two entries with their texts. -/
def json : Json := ⟨marshal, unmarshal, unmarshal_marshal⟩

def dataPath : Path := [str "keys"]

def disk : FileTree := FileTree.empty.set dataPath .dir

def quiet : Faults := ⟨fun _ => none, none, none, none⟩

def full : Faults := { quiet with write := some (10, .other (str "no space left on device")) }

def store (encryptedKey : Bytes) (faults : Faults) : Event :=
  .store (str "b") (str "k") (some (dek encryptedKey)) 5 faults [] now

/-- A key is stored, and the disk is full when it is to be replaced. -/
def overwrite : List Event := [store [1, 2] quiet, store [3, 4] full, .get (str "b") (str "k") none]

def history : List Event :=
  [store [1, 2] quiet, .restart, .get (str "b") (str "k") none, .delete (str "b") (str "k") none,
    .get (str "b") (str "k") none]

theorem isName : Path.IsName (str "b") := ⟨by decide, by decide, by decide, by decide⟩

end Sample

open Sample

/-- After a store that failed the key that was there is not to be had: the call for
it panics. -/
theorem failed_store_loses_key : (overwrite.foldlM (next json) (.initial dataPath disk)).map
        (fun s => s.answers.map fun answer => (answer.due.toOption, answer.given.isSome)) =
      some [(some (dek [1, 2]), false)] ∧
      ¬ Always (next json) Faithful (.initial dataPath disk) overwrite := by
  refine seen_not_always _ (by decide +kernel) ?_
  intro s seen faithful
  obtain ⟨answer, rest, answers, seen, -⟩ := map_eq_cons_iff.mp seen
  rw [faithful.2 answer (answers ▸ mem_cons_self)] at seen
  cases (Prod.mk.inj seen).2

/-- A key outlives a restart. -/
theorem sample_key_answered : Always (next json) Faithful (.initial dataPath disk) history := by
  refine acknowledged_keys_answered json dataPath disk (by decide +kernel) (by decide +kernel) history ?_
  have stored (s : State) : Orderly json s (store [1, 2] quiet) :=
    ⟨isName, by decide, by decide, _, rfl, by decide, by decide +kernel,
      fun _ => ⟨⟨fun _ => rfl, rfl, rfl, rfl⟩, text "AQI=", by decide +kernel⟩⟩
  exact fun _ _ => ⟨stored _, fun _ _ => ⟨trivial, fun _ _ => ⟨isName, fun _ _ =>
    ⟨⟨isName, fun _ => rfl⟩, fun _ _ => ⟨isName, trivial⟩⟩⟩⟩⟩

end CipherLake.KeyStore

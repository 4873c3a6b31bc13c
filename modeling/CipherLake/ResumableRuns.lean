import CipherLake.IdentityPolicies
import CipherLake.ObjectWrites

/-! Runs of one resumable upload: its creation, and any number of `PATCH` and
`HEAD` requests that take turns. The recorded offset and the file agree as long
as a `PATCH` that passes the offset check is alone until its answer, and gives
up only while it has written nothing. -/
namespace CipherLake.Resumable
open Lib Http AccessControl Metadata Storage Gateway List FileTree Option ObjectWrites

variable {κ : Type} {session : ResumableSession} {content : Bytes}

/-! ### Runs -/

def Phase.inFlight : Phase → Bool
  | .answered _ => false
  | _ => true

/-- The answer of a `PATCH` that names a new offset. -/
def Phase.acknowledged : Phase → Bool
  | .answered (.sent status _ _ none) => status = 204
  | _ => false

/-- The stores, the `PATCH` requests so far, and the bodies that have been
acknowledged, in this order. -/
structure Run (κ : Type) where
  world : World κ
  patches : List (Patch κ)
  acked : List Bytes

inductive Event (κ : Type) where
  | head (call : Call κ) (r : Request) (bucket key : Bytes)
  | patch (call : Call κ) (r : Request) (bucket key : Bytes)
  | advance (i : Nat) (choice : Choice)

/-- A step of the `PATCH` at a place of the list. -/
def turn (g : Config) (run : Run κ) (i : Nat) (choice : Choice) : Option (Run κ) :=
  match run.patches[i]? with
  | none => some run
  | some p =>
    (advance g choice run.world p).map fun out =>
      { world := out.2
        patches := run.patches.set i { p with phase := out.1 }
        acked := if p.phase.inFlight && out.1.acknowledged then run.acked ++ [p.request.body.bytes] else run.acked }

def step (g : Config) (run : Run κ) : Event κ → Option (Run κ)
  | .head call r bucket key => (handleHead g call run.world r bucket key).map fun out => { run with world := out.2 }
  | .patch call r bucket key =>
    (admitPatch g call run.world r bucket key).map fun out =>
      { run with world := out.2, patches := run.patches ++ [⟨call, r, bucket, key, out.1⟩] }
  | .advance i choice => turn g run i choice

/-- The requests are about one upload. -/
def Concerns (uploadID : Bytes) : Event κ → Prop
  | .head _ r _ _ => r.queryGet (str "uploadId") = uploadID
  | .patch _ r _ _ => r.queryGet (str "uploadId") = uploadID
  | .advance _ _ => True

/-- The runs of an upload in which every event is an allowed one. Upload ids
are fresh UUIDs, so they survive an encoding. -/
inductive Reachable (g : Config) (uploadID : Bytes) (allowed : Run κ → Event κ → Prop) : Run κ → Prop where
  | created {call : Call κ} {faults : Creation} {w w' : World κ} {r : Request} {bucket key : Bytes}
      {headers : List (Bytes × Bytes)} (ascii : jsonString uploadID = uploadID)
      (made : handleCreateSession g call faults w r bucket key uploadID = some (.sent 201 headers [] none, w')) :
      Reachable g uploadID allowed ⟨w', [], []⟩
  | next {run run' : Run κ} {e : Event κ} (before : Reachable g uploadID allowed run) (about : Concerns uploadID e)
      (isAllowed : allowed run e) (made : step g run e = some run') : Reachable g uploadID allowed run'

/-- No `PATCH` is in flight. -/
def Quiet (run : Run κ) : Prop := ∀ p ∈ run.patches, p.phase.inFlight = false

/-- The recorded offset is the length of the file, and the file holds the
acknowledged bodies. -/
def Settled (g : Config) (uploadID : Bytes) (run : Run κ) : Prop :=
  ∃ session, run.world.sessions.get uploadID = some session ∧
    run.world.fs.entry (getTempFilePath g uploadID) = some (.file run.acked.flatten) ∧
    session.offset = run.acked.flatten.length

/-- A request that the offset check turns away whatever else it asks for. -/
def Elsewhere (run : Run κ) (r : Request) : Prop :=
  ∀ session, run.world.sessions.get (r.queryGet (str "uploadId")) = some session →
    parseInt (r.headerGet (str "Upload-Offset")) ≠ some session.offset

def bodyFails (r : Request) : Bool :=
  match readAll r.body with
  | .error _ => true
  | .ok _ => false

/-- A `PATCH` that has written something is not stopped, by its body or by a
failing call, before its answer, and leaves finalizing to another request. -/
def Unbroken (p : Patch κ) (choice : Choice) : Prop :=
  match p.phase with
  | .copying _ rest written =>
    (choice.fault ≠ none → written = 0 ∧ choice.count = 0) ∧
      (rest = [] → bodyFails p.request = true → written = 0)
  | .syncing _ written => choice.fault = none ∨ written = 0
  | .deciding _ written _ => choice.fault = none ∨ written = 0
  | .updated _ _ => wantsFinalize p.request = false
  | _ => True

/-- The events that keep file and session together: besides, nobody starts
beside a `PATCH` in flight. -/
def Orderly (run : Run κ) : Event κ → Prop
  | .head .. => True
  | .patch _ r _ _ => Quiet run ∨ Elsewhere run r
  | .advance i choice => ∀ p, run.patches[i]? = some p → Unbroken p choice

instance (p : Patch κ) (choice : Choice) : Decidable (Unbroken p choice) :=
  match p with
  | ⟨_, r, _, _, .copying _ rest written⟩ =>
    inferInstanceAs (Decidable ((choice.fault ≠ none → written = 0 ∧ choice.count = 0) ∧
      (rest = [] → bodyFails r = true → written = 0)))
  | ⟨_, _, _, _, .syncing _ written⟩ => inferInstanceAs (Decidable (choice.fault = none ∨ written = 0))
  | ⟨_, _, _, _, .deciding _ written _⟩ => inferInstanceAs (Decidable (choice.fault = none ∨ written = 0))
  | ⟨_, r, _, _, .updated _ _⟩ => inferInstanceAs (Decidable (wantsFinalize r = false))
  | ⟨_, _, _, _, .opening _⟩ => isTrue trivial
  | ⟨_, _, _, _, .hashing _ _⟩ => isTrue trivial
  | ⟨_, _, _, _, .answered _⟩ => isTrue trivial

instance (run : Run κ) : Decidable (Quiet run) :=
  inferInstanceAs (Decidable (∀ p ∈ run.patches, p.phase.inFlight = false))

instance (run : Run κ) (r : Request) : Decidable (Elsewhere run r) :=
  match held : run.world.sessions.get (r.queryGet (str "uploadId")) with
  | none => isTrue fun _ found => nomatch held.symm.trans found
  | some session =>
    decidable_of_iff (parseInt (r.headerGet (str "Upload-Offset")) ≠ some session.offset)
      ⟨fun apart _ found => some.inj (held.symm.trans found) ▸ apart, fun apart => apart session held⟩

instance (run : Run κ) : DecidablePred (Orderly run) := fun e =>
  match e with
  | .head .. => isTrue trivial
  | .patch _ r _ _ => inferInstanceAs (Decidable (Quiet run ∨ Elsewhere run r))
  | .advance i choice =>
    match held : run.patches[i]? with
    | none => isTrue fun _ found => nomatch held.symm.trans found
    | some p => decidable_of_iff (Unbroken p choice)
      ⟨fun unbroken _ found => some.inj (held.symm.trans found) ▸ unbroken, fun all => all p held⟩

instance (uploadID : Bytes) : DecidablePred (Concerns uploadID : Event κ → Prop) := fun e =>
  match e with
  | .head _ r _ _ => inferInstanceAs (Decidable (r.queryGet (str "uploadId") = uploadID))
  | .patch _ r _ _ => inferInstanceAs (Decidable (r.queryGet (str "uploadId") = uploadID))
  | .advance _ _ => isTrue trivial

/-- The run of a list of events, as long as they are allowed. -/
def follow (g : Config) (uploadID : Bytes) (allowed : Run κ → Event κ → Prop)
    [∀ run, DecidablePred (allowed run)] : List (Event κ) → Run κ → Option (Run κ)
  | [], run => some run
  | e :: rest, run =>
    if Concerns uploadID e ∧ allowed run e then (step g run e).bind (follow g uploadID allowed rest) else none

theorem follow_reachable {g : Config} {uploadID : Bytes} {allowed : Run κ → Event κ → Prop}
    [∀ run, DecidablePred (allowed run)] (events : List (Event κ)) {run run' : Run κ}
    (reachable : Reachable g uploadID allowed run) (followed : follow g uploadID allowed events run = some run') :
    Reachable g uploadID allowed run' := by
  induction events generalizing run with
  | nil => exact some.inj followed ▸ reachable
  | cons e rest ih =>
    rw [follow] at followed
    split at followed
    · next fits =>
      obtain ⟨_, made, later⟩ := bind_eq_some_iff.mp followed
      exact ih (reachable.next fits.1 fits.2 made) later
    · cases followed

/-! ### One step -/

/-- What a `PATCH` in flight has done: the offset on record and the file, over
the bytes acknowledged before it. -/
def Carries (p : Patch κ) (uploadID base : Bytes) (recorded : Int) (file : Bytes) : Prop :=
  match p.phase with
  | .opening session =>
    session.uploadID = uploadID ∧ session.offset = base.length ∧ recorded = base.length ∧ file = base
  | .copying session rest written =>
    session.uploadID = uploadID ∧ session.offset = base.length ∧ recorded = base.length ∧
      ∃ done, p.request.body.bytes = done ++ rest ∧ written = done.length ∧ file = base ++ done
  | .syncing session written | .hashing session written | .deciding session written _ =>
    session.uploadID = uploadID ∧ session.offset = base.length ∧ recorded = base.length ∧
      written = p.request.body.bytes.length ∧ file = base ++ p.request.body.bytes
  | .updated _ _ =>
    recorded = (base ++ p.request.body.bytes).length ∧ file = base ++ p.request.body.bytes
  | .answered _ => False

/-- The session and the file of an upload. -/
structure Shows (g : Config) (w : World κ) (uploadID : Bytes) (recorded : Int) (file : Bytes) : Prop where
  session : ∃ session, w.sessions.get uploadID = some session ∧ session.uploadID = uploadID ∧
    session.offset = recorded
  file : w.fs.entry (getTempFilePath g uploadID) = some (.file file)

/-- The bytes acknowledged once a `PATCH` stands at a phase. -/
def ackedBy (p : Patch κ) (base : Bytes) (phase : Phase) : Bytes :=
  if phase.acknowledged then base ++ p.request.body.bytes else base

/-- Where a step leads: the `PATCH` is still in flight, or session and file are
together again. -/
def Leads (g : Config) (w : World κ) (p : Patch κ) (uploadID base : Bytes) (phase : Phase) : Prop :=
  ∃ recorded file, Shows g w uploadID recorded file ∧
    (phase.inFlight = true ∧ phase.acknowledged = false ∧ Carries { p with phase } uploadID base recorded file ∨
      phase.inFlight = false ∧ recorded = (ackedBy p base phase).length ∧ file = ackedBy p base phase)

section
variable {g : Config} {w : World κ} {p : Patch κ} {uploadID base file : Bytes} {recorded : Int} {choice : Choice}
  {phase : Phase} {w' : World κ} {fs : FileTree}

/-- A `PATCH` that gives up with nothing written. -/
theorem leads_refused (shows_ : Shows g w uploadID base.length base) (message : Bytes) :
    Leads g w p uploadID base (.answered (.refused message)) :=
  ⟨_, _, shows_, .inr ⟨rfl, rfl, rfl⟩⟩

theorem Shows.append (shows_ : Shows g w uploadID recorded file) (bytes : Bytes) :
    Shows g { w with fs := w.fs.append (getTempFilePath g uploadID) bytes } uploadID recorded (file ++ bytes) where
  session := shows_.session
  file := by rw [entry_append shows_.file, if_pos rfl]

theorem copyStep_leads {rest : Bytes} {written : Nat} (shows_ : Shows g w uploadID recorded file)
    (carries : Carries { p with phase := .copying session rest written } uploadID base recorded file)
    (unbroken : Unbroken { p with phase := .copying session rest written } choice)
    (made : copyStep choice w.fs (getTempFilePath g uploadID) p.request.body session rest written = (phase, fs)) :
    Leads g { w with fs } p uploadID base phase := by
  obtain ⟨mine, read, onRecord, done, split_, counted, rfl⟩ := carries
  obtain ⟨unfaulted, unended⟩ := unbroken
  subst onRecord
  unfold copyStep at made
  cases failed : choice.fault with
  | some e =>
    obtain ⟨nothing, taken⟩ := unfaulted (by rw [failed]; nofun)
    obtain rfl : done = [] := length_eq_zero_iff.mp (counted.symm.trans nothing)
    rw [append_nil] at shows_
    simp only [failed, taken, take_zero, Prod.mk.injEq] at made
    obtain ⟨rfl, rfl⟩ := made
    have kept := shows_.append []
    rw [append_nil] at kept
    exact leads_refused kept _
  | none =>
    simp only [failed] at made
    by_cases ended : rest = []
    · subst ended
      rw [append_nil] at split_
      cases body : readAll p.request.body with
      | error e =>
        have fails : bodyFails p.request = true := by
          rw [bodyFails, body]
        obtain rfl : done = [] := length_eq_zero_iff.mp (counted.symm.trans (unended rfl fails))
        rw [append_nil] at shows_
        simp only [body] at made
        obtain ⟨rfl, rfl⟩ := made
        exact leads_refused shows_ _
      | ok bytes =>
        simp only [body] at made
        obtain ⟨rfl, rfl⟩ := made
        refine ⟨_, _, shows_, .inl ⟨rfl, rfl, mine, read, rfl, ?_, ?_⟩⟩
        · rw [split_, counted]
        · rw [split_]
    · rw [if_neg ended] at made
      obtain ⟨rfl, rfl⟩ := made
      refine ⟨_, _, shows_.append (rest.take (choice.count + 1)), .inl ⟨rfl, rfl, mine, read, rfl,
        done ++ rest.take (choice.count + 1), ?_, ?_, ?_⟩⟩
      · rw [append_assoc, take_append_drop, split_]
      · rw [length_append, counted]
      · rw [append_assoc]

/-- The session that is put on record is the one on record afterwards. -/
theorem Shows.put (session : ResumableSession) (shows_ : Shows g w uploadID recorded file)
    (ascii : jsonString uploadID = uploadID) (mine : session.uploadID = uploadID) :
    Shows g { w with sessions := w.sessions.put session.uploadID session.decoded } uploadID session.offset file where
  session := by
    refine ⟨session.decoded, ?_, ?_, rfl⟩
    · rw [mine]
      exact Table.get_put_same _ _ _
    · rw [ResumableSession.decoded, mine, ascii]
  file := shows_.file

theorem decideStep_leads {written : Nat} {computed : Bytes} (ascii : jsonString uploadID = uploadID)
    (shows_ : Shows g w uploadID recorded file)
    (carries : Carries { p with phase := .deciding session written computed } uploadID base recorded file)
    (unbroken : Unbroken { p with phase := .deciding session written computed } choice)
    (made : decideStep choice w (getTempFilePath g uploadID) p.call p.request session written computed = (phase, w')) :
    Leads g w' p uploadID base phase := by
  obtain ⟨mine, read, rfl, counted, rfl⟩ := carries
  unfold decideStep at made
  by_cases mismatch : mismatched p.call p.request computed
  · rw [if_pos mismatch, Prod.mk.injEq] at made
    obtain ⟨rfl, rfl⟩ := made
    refine ⟨base.length, base, ?_, .inr ⟨rfl, rfl, rfl⟩⟩
    rcases unbroken with sound | nothing
    · rw [sound]
      refine ⟨shows_.session, ?_⟩
      have within : session.offset.toNat ≤ (base ++ p.request.body.bytes).length := by
        rw [read, Int.toNat_natCast, length_append]
        omega
      simp only [isSome_none, Bool.false_eq_true, if_false]
      rw [entry_truncate shows_.file within, if_pos rfl, read, Int.toNat_natCast, take_left]
    · have empty : p.request.body.bytes = [] := length_eq_zero_iff.mp (counted.symm.trans nothing)
      rw [empty, append_nil] at shows_
      split
      · exact shows_
      · refine ⟨shows_.session, ?_⟩
        have within : session.offset.toNat ≤ base.length := by rw [read, Int.toNat_natCast]
        rw [entry_truncate shows_.file within, if_pos rfl, read, Int.toNat_natCast, take_length]
  · rw [if_neg mismatch] at made
    cases failed : choice.fault with
    | some e =>
      have empty : p.request.body.bytes = [] := by
        refine length_eq_zero_iff.mp (counted.symm.trans (unbroken.resolve_left ?_))
        rw [failed]
        nofun
      rw [empty, append_nil] at shows_
      simp only [failed, map_some] at made
      obtain ⟨rfl, rfl⟩ := made
      exact leads_refused shows_ _
    | none =>
      simp only [failed, map_none] at made
      obtain ⟨rfl, rfl⟩ := made
      have put := shows_.put (advancedSession session written computed) ascii mine
      refine ⟨_, _, put, .inl ⟨rfl, rfl, ?_, rfl⟩⟩
      rw [advancedSession, read, counted, length_append, Nat.cast_add]

/-- Every step of a `PATCH` in flight, up to its answer. -/
theorem advance_leads (ascii : jsonString uploadID = uploadID) (shows_ : Shows g w uploadID recorded file)
    (carries : Carries p uploadID base recorded file) (named : p.request.queryGet (str "uploadId") = uploadID)
    (unbroken : Unbroken p choice) (made : advance g choice w p = some (phase, w')) : Leads g w' p uploadID base phase := by
  obtain ⟨call, request, bucket, key, current⟩ := p
  simp only [advance, named] at made
  cases current with
  | opening session =>
    obtain ⟨mine, read, rfl, rfl⟩ := carries
    cases failed : choice.fault with
    | some e =>
      simp only [failed, some.injEq, Prod.mk.injEq] at made
      obtain ⟨rfl, rfl⟩ := made
      exact leads_refused shows_ _
    | none =>
      simp only [failed, shows_.file, some.injEq, Prod.mk.injEq] at made
      obtain ⟨rfl, rfl⟩ := made
      exact ⟨_, _, shows_, .inl ⟨rfl, rfl, mine, read, rfl, [], rfl, rfl, (append_nil _).symm⟩⟩
  | copying session rest written =>
    obtain ⟨rfl, rfl⟩ := made
    exact copyStep_leads shows_ carries unbroken rfl
  | syncing session written =>
    obtain ⟨mine, read, rfl, counted, rfl⟩ := carries
    cases failed : choice.fault with
    | some e =>
      have empty : request.body.bytes = [] := by
        refine length_eq_zero_iff.mp (counted.symm.trans (Or.resolve_left unbroken ?_))
        rw [failed]
        nofun
      rw [empty, append_nil] at shows_
      simp only [failed, some.injEq, Prod.mk.injEq] at made
      obtain ⟨rfl, rfl⟩ := made
      exact leads_refused shows_ _
    | none =>
      simp only [failed, some.injEq, Prod.mk.injEq] at made
      obtain ⟨rfl, rfl⟩ := made
      exact ⟨_, _, shows_, .inl ⟨rfl, rfl, mine, read, rfl, counted, rfl⟩⟩
  | hashing session written =>
    obtain ⟨rfl, rfl⟩ := made
    exact ⟨_, _, shows_, .inl ⟨rfl, rfl, carries⟩⟩
  | deciding session written computed =>
    simp only [some.injEq] at made
    exact decideStep_leads ascii shows_ carries unbroken made
  | updated session computed =>
    obtain ⟨rfl, rfl⟩ := carries
    have plain : wantsFinalize request = false := unbroken
    simp only [finishStep, plain, Bool.false_eq_true, if_false, some.injEq, Prod.mk.injEq] at made
    obtain ⟨rfl, rfl⟩ := made
    exact ⟨_, _, shows_, .inr ⟨rfl, rfl, rfl⟩⟩
  | answered reply => exact carries.elim

end

/-! ### Whole runs -/

/-- The invariant of an orderly run: at most one `PATCH` is in flight, and it
accounts for what session and file are ahead of the acknowledged bodies. -/
structure Tracked (g : Config) (uploadID : Bytes) (run : Run κ) : Prop where
  ascii : jsonString uploadID = uploadID
  ours : ∀ p ∈ run.patches, p.request.queryGet (str "uploadId") = uploadID
  state : ∃ recorded file, Shows g run.world uploadID recorded file ∧
    (Quiet run ∧ recorded = run.acked.flatten.length ∧ file = run.acked.flatten ∨
      ∃ i p, run.patches[i]? = some p ∧ Carries p uploadID run.acked.flatten recorded file ∧
        ∀ (j : Nat) (q : Patch κ), run.patches[j]? = some q → j ≠ i → q.phase.inFlight = false)

section
variable {g : Config} {w w' : World κ} {uploadID : Bytes} {run run' : Run κ}

theorem Shows.of_eq {recorded : Int} {file : Bytes} (shows_ : Shows g w uploadID recorded file)
    (sessions : w'.sessions = w.sessions) (fs : w'.fs = w.fs) : Shows g w' uploadID recorded file where
  session := sessions ▸ shows_.session
  file := fs ▸ shows_.file

variable {call : Call κ} {r : Request} {bucket key : Bytes} {headers : List (Bytes × Bytes)} {faults : Finalization}

theorem handleHead_frame {out : Reply × World κ} (made : handleHead g call w r bucket key = some out) :
    out.2.sessions = w.sessions ∧ out.2.fs = w.fs := by
  rcases identified_cases made with ⟨logins, kept, -⟩ | ⟨_, logins, -, answered⟩
  · rw [kept]
    exact ⟨rfl, rfl⟩
  · split at answered
    · cases answered
      exact ⟨rfl, rfl⟩
    · cases answered
      exact ⟨rfl, rfl⟩

theorem findSession_ok (found : findSession call w r bucket key = .ok session) :
    w.sessions.get (r.queryGet (str "uploadId")) = some session := by
  simp only [findSession] at found
  split at found
  · cases found
  split at found
  · cases found
  rename_i held
  rw [held]
  split at found
  · cases found
  · split at found
    · cases found
    · exact congrArg some (Except.ok.inj found)

/-- A `PATCH` starts with the session that is on record, at its offset. -/
theorem checkPatch_cases (call : Call κ) (w : World κ) (r : Request) (bucket key : Bytes) :
    (checkPatch call w r bucket key).inFlight = false ∨ ∃ session, checkPatch call w r bucket key = .opening session ∧
        w.sessions.get (r.queryGet (str "uploadId")) = some session ∧
        parseInt (r.headerGet (str "Upload-Offset")) = some session.offset := by
  unfold checkPatch
  cases found : findSession call w r bucket key with
  | error reply => exact .inl rfl
  | ok session =>
    have onRecord := findSession_ok found
    simp only
    split
    · exact .inl rfl
    split
    · exact .inl rfl
    · cases parsed : parseInt (r.headerGet (str "Upload-Offset")) with
      | none => exact .inl rfl
      | some clientOffset =>
        by_cases apart : clientOffset ≠ session.offset
        · simp only [if_pos apart]
          exact .inl rfl
        · simp only [if_neg apart]
          exact .inr ⟨session, rfl, onRecord, congrArg some (not_not.mp apart)⟩

theorem admitPatch_cases {out : Phase × World κ} (made : admitPatch g call w r bucket key = some out) :
    out.2.sessions = w.sessions ∧ out.2.fs = w.fs ∧ (out.1.inFlight = false ∨ ∃ session, out.1 = .opening session ∧
        w.sessions.get (r.queryGet (str "uploadId")) = some session ∧
        parseInt (r.headerGet (str "Upload-Offset")) = some session.offset) := by
  obtain ⟨⟨result, -⟩, -, rfl⟩ := map_eq_some_iff.mp made
  rcases result with (- | -) | -
  · exact ⟨rfl, rfl, .inl rfl⟩
  · exact ⟨rfl, rfl, .inl rfl⟩
  · exact ⟨rfl, rfl, checkPatch_cases call w r bucket key⟩

theorem Carries.inFlight {p : Patch κ} {base file : Bytes} {recorded : Int}
    (carries : Carries p uploadID base recorded file) : p.phase.inFlight = true := by
  unfold Carries at carries
  cases phase : p.phase with
  | answered reply =>
    rw [phase] at carries
    exact carries.elim
  | _ => rfl

/-- A new `PATCH` is turned away, or is the only one in flight. -/
theorem Tracked.patch (tracked : Tracked g uploadID run) (about : r.queryGet (str "uploadId") = uploadID)
    (orderly : Orderly run (.patch call r bucket key)) (made : step g run (.patch call r bucket key) = some run') :
    Tracked g uploadID run' := by
  obtain ⟨⟨_, _⟩, admitted, rfl⟩ := map_eq_some_iff.mp made
  obtain ⟨sessions, fs, outcome⟩ := admitPatch_cases admitted
  obtain ⟨recorded, file, shows_, state⟩ := tracked.state
  refine ⟨tracked.ascii, ?_, recorded, file, shows_.of_eq sessions fs, ?_⟩
  · intro p member
    rcases mem_append.mp member with old | new
    · exact tracked.ours p old
    · obtain rfl := mem_singleton.mp new
      exact about
  · rcases outcome with turnedAway | ⟨session, rfl, onRecord, parsed⟩
    · rcases state with ⟨quiet, settled⟩ | ⟨i, p, at_, carries, others⟩
      · refine .inl ⟨fun p member => ?_, settled⟩
        rcases mem_append.mp member with old | new
        · exact quiet p old
        · obtain rfl := mem_singleton.mp new
          exact turnedAway
      · refine .inr ⟨i, p, ?_, carries, fun j q held apart => ?_⟩
        · exact (List.getElem?_append_left (List.getElem?_eq_some_iff.mp at_).1).trans at_
        · rw [List.getElem?_append] at held
          split at held
          · exact others j q held apart
          · rw [List.getElem?_singleton] at held
            split at held
            · cases held
              exact turnedAway
            · cases held
    · have quiet : Quiet run := Or.resolve_right orderly fun elsewhere => elsewhere session onRecord parsed
      rcases state with ⟨-, rfl, rfl⟩ | ⟨i, p, at_, carries, -⟩
      · obtain ⟨_, onRecord', mine, offset⟩ := shows_.session
        rw [about, onRecord'] at onRecord
        cases onRecord
        refine .inr ⟨run.patches.length, _, List.getElem?_concat_length, ⟨mine, offset, rfl, rfl⟩,
          fun j q held apart => ?_⟩
        rw [List.getElem?_append] at held
        split at held
        · exact quiet q (mem_of_getElem? held)
        · rw [List.getElem?_singleton] at held
          split at held
          · omega
          · cases held
      · exact absurd (quiet p (mem_of_getElem? at_)) (by rw [carries.inFlight]; nofun)

/-- A `PATCH` in flight takes a step. -/
theorem Tracked.turn {i : Nat} {choice : Choice} (tracked : Tracked g uploadID run)
    (orderly : Orderly run (.advance i choice)) (made : step g run (.advance i choice) = some run') :
    Tracked g uploadID run' := by
  simp only [step, Resumable.turn] at made
  cases held : run.patches[i]? with
  | none =>
    rw [held] at made
    cases made
    exact tracked
  | some p =>
    simp only [held] at made
    obtain ⟨⟨phase, w⟩, advanced, rfl⟩ := map_eq_some_iff.mp made
    have named := tracked.ours p (mem_of_getElem? held)
    have ours : ∀ q ∈ run.patches.set i { p with phase }, q.request.queryGet (str "uploadId") = uploadID := by
      intro q member
      rcases mem_or_eq_of_mem_set member with old | rfl
      · exact tracked.ours q old
      · exact named
    have others {j : Nat} {q : Patch κ} (at_ : (run.patches.set i { p with phase })[j]? = some q) (apart : j ≠ i) :
        run.patches[j]? = some q := by
      rwa [List.getElem?_set_ne (Ne.symm apart)] at at_
    have here : (run.patches.set i { p with phase })[i]? = some { p with phase } :=
      List.getElem?_set_self (List.getElem?_eq_some_iff.mp held).1
    obtain ⟨recorded, file, shows_, state⟩ := tracked.state
    cases flying : p.phase.inFlight with
    | false =>
      obtain ⟨call, request, bucket, key, current⟩ := p
      cases current with
      | answered reply =>
        obtain ⟨rfl, rfl⟩ := advanced
        have same : run.patches.set i ⟨call, request, bucket, key, .answered reply⟩ = run.patches := by
          obtain ⟨within, found⟩ := List.getElem?_eq_some_iff.mp held
          rw [← found, set_getElem_self]
        simp only [same, Bool.false_and, Bool.false_eq_true, if_false]
        exact tracked
      | _ => cases flying
    | true =>
      rcases state with ⟨quiet, -⟩ | ⟨k, p', at_, carries, alone⟩
      · rw [quiet p (mem_of_getElem? held)] at flying
        cases flying
      obtain rfl : i = k := by
        by_contra apart
        rw [alone i p held apart] at flying
        cases flying
      obtain rfl : p = p' := some.inj (held.symm.trans at_)
      obtain ⟨recorded', file', shows', leads⟩ :=
        advance_leads tracked.ascii shows_ carries named (orderly p held) advanced
      refine ⟨tracked.ascii, ours, recorded', file', shows', ?_⟩
      rcases leads with ⟨still, unacked, carries'⟩ | ⟨ended, offset, content⟩
      · refine .inr ⟨i, _, here, ?_, fun j q at_ apart => alone j q (others at_ apart) apart⟩
        simpa only [unacked, Bool.and_false, Bool.false_eq_true, if_false] using carries'
      have whole : (if true && phase.acknowledged then run.acked ++ [p.request.body.bytes]
          else run.acked).flatten = ackedBy p run.acked.flatten phase := by
        rw [ackedBy, Bool.true_and]
        split
        · rw [flatten_append, flatten_singleton]
        · rfl
      refine .inl ⟨fun q member => ?_, offset.trans (congrArg (fun bytes => (bytes.length : Int)) whole.symm),
        content.trans whole.symm⟩
      · obtain ⟨j, at_⟩ := mem_iff_getElem?.mp member
        by_cases same : j = i
        · subst same
          cases here.symm.trans at_
          exact ended
        · exact alone j q (others at_ same) same

theorem Tracked.created {faults : Creation} (ascii : jsonString uploadID = uploadID)
    (made : handleCreateSession g call faults w r bucket key uploadID = some (.sent 201 headers [] none, w')) :
    Tracked g uploadID (⟨w', [], []⟩ : Run κ) := by
  refine ⟨ascii, fun p member => (not_mem_nil member).elim, 0, [], ?_,
    .inl ⟨fun p member => (not_mem_nil member).elim, rfl, rfl⟩⟩
  rcases identified_cases made with ⟨logins, -, panicked | ⟨e, denied⟩⟩ | ⟨_, logins, -, answered⟩
  · cases panicked
  · cases denied
  unfold putResumableSession at answered
  cases failed : faults.session with
  | some e =>
    simp only [failed, some.injEq, Prod.mk.injEq] at answered
    cases answered.1
  | none =>
    simp only [failed] at answered
    split at answered
    · simp only [some.injEq, Prod.mk.injEq] at answered
      cases answered.1
    rename_i fs opened
    obtain ⟨-, rfl⟩ := answered
    refine ⟨⟨_, Table.get_put_same _ _ _, ?_, rfl⟩, ?_⟩
    · exact ascii
    · unfold createFile at opened
      split at opened
      · cases opened
      · exact create_ok opened

/-- Every orderly run is tracked. -/
theorem reachable_tracked (reachable : Reachable g uploadID Orderly run) : Tracked g uploadID run := by
  induction reachable with
  | created ascii made => exact Tracked.created ascii made
  | @next run run' e before about orderly made tracked =>
    cases e with
    | head call r bucket key =>
      obtain ⟨_, headed, rfl⟩ := map_eq_some_iff.mp made
      obtain ⟨sessions, fs⟩ := handleHead_frame headed
      obtain ⟨recorded, file, shows_, state⟩ := tracked.state
      exact ⟨tracked.ascii, tracked.ours, recorded, file, shows_.of_eq sessions fs, state⟩
    | patch call r bucket key => exact tracked.patch about orderly made
    | advance i choice => exact tracked.turn orderly made

/-! ### Finalizing -/

/-- What is stored for the contents of an upload: the contents, or what the
coordinator makes of them. -/
def storedBytes (g : Config) (call : Call κ) (keys : κ) (userID bucket key content : Bytes) : Except Bytes Bytes :=
  match call.crypto, g.cryptoEnabled with
  | some crypto, true =>
    (crypto.encryptOperation keys userID bucket key ⟨content, some .eof⟩ content.length).1.map (·.data.bytes)
  | _, _ => .ok content

theorem prepareFinalize_stores {userID checksum : Bytes} {plan : Plan}
    (planned : prepareFinalize g call w bucket key userID checksum session content.length ⟨content, some .eof⟩ =
      (.ok plan, w')) : storedBytes g call w.keys userID bucket key content = .ok plan.data.bytes := by
  unfold prepareFinalize at planned
  unfold storedBytes
  generalize call.crypto = coordinator at planned ⊢
  generalize g.cryptoEnabled = enabled at planned ⊢
  cases coordinator with
  | none =>
    cases planned
    rfl
  | some crypto =>
    cases enabled with
    | false =>
      cases planned
      rfl
    | true =>
      simp only at planned ⊢
      generalize crypto.encryptOperation w.keys userID bucket key ⟨content, some .eof⟩ content.length = out at planned ⊢
      obtain ⟨_ | _, _⟩ := out
      all_goals cases planned
      rfl

theorem openTemp_ok {t : FileTree} {path : Path} {contentLength : Int} {data : Answer} (read : faults.reading = none)
    (file : t.entry path = some (.file content)) (opened : openTemp faults t path = .ok (contentLength, data)) :
    contentLength = content.length ∧ data = ⟨content, some .eof⟩ := by
  unfold openTemp at opened
  split at opened
  · cases opened
  · simp only [file, read] at opened
    split at opened
    · cases opened
    · obtain ⟨rfl, rfl⟩ := Prod.mk.inj (Except.ok.inj opened)
      exact ⟨rfl, rfl⟩

/-- A finalization that succeeds stores what the temporary file holds. -/
theorem handleFinalize_stores {body : Bytes} (named : r.queryGet (str "uploadId") = uploadID)
    (read : faults.reading = none) (file : w.fs.entry (getTempFilePath g uploadID) = some (.file content))
    (apart : ∀ rootDir, g.tiers tierHot = some rootDir → objectPath rootDir bucket key ≠ getTempFilePath g uploadID)
    (done : handleFinalize g call faults w r bucket key = some (.sent 200 headers body none, w')) :
    ∃ userID stored, storedBytes g call w.keys userID bucket key content = .ok stored ∧
      Storage.get g.tiers (Disk.sound []) w'.fs bucket key tierHot = .ok ⟨stored, some .eof⟩ := by
  obtain ⟨w₁, p, fs, checksum, metadata, prepared, put, -, concluded⟩ :=
    @handle_succeeded κ g w bucket key _ (.finalize call faults r) _ done ⟨Nat.le_refl 200, by decide⟩
  obtain ⟨logins, userID, session, _, _, plan, _, -, opened, planned, rfl⟩ := preparedFinalize_spec.ok prepared
  subst named
  obtain ⟨rfl, rfl⟩ := openTemp_ok read file opened
  obtain ⟨rootDir, made, root, -, -, entries⟩ := put_ok put
  have stored := prepareFinalize_stores planned
  refine ⟨userID, plan.data.bytes, stored, (get_eq_iff ..).mpr ⟨rootDir, root, ?_⟩⟩
  obtain ⟨_, _, shape, kept⟩ := @concludeFinalize_shape κ g call faults { w₁ with fs, metadata } session
    (r.queryGet (str "uploadId")) plan.record.encrypted
  obtain rfl := (congrArg Prod.snd concluded).symm.trans shape
  exact (kept _ (apart rootDir root)).trans ((entries _).trans (if_pos rfl))

/-- A finalization of the upload that succeeds stores the acknowledged bytes. -/
def FinalizesAcked (g : Config) (uploadID : Bytes) (run : Run κ) : Prop :=
  ∀ (call : Call κ) (faults : Finalization) (r : Request) (bucket key : Bytes) (headers : List (Bytes × Bytes))
    (body : Bytes) (w' : World κ),
    r.queryGet (str "uploadId") = uploadID → faults.reading = none →
    (∀ rootDir, g.tiers tierHot = some rootDir → objectPath rootDir bucket key ≠ getTempFilePath g uploadID) →
    handleFinalize g call faults run.world r bucket key = some (.sent 200 headers body none, w') →
    ∃ userID stored, storedBytes g call run.world.keys userID bucket key run.acked.flatten = .ok stored ∧
      Storage.get g.tiers (Disk.sound []) w'.fs bucket key tierHot = .ok ⟨stored, some .eof⟩

/-- In an orderly run, whenever no `PATCH` is in flight, the recorded offset is
the length of the file, the file holds the acknowledged bodies, and these are
what a finalization stores. -/
theorem orderly_run_settled (g : Config) (uploadID : Bytes) (run : Run κ)
    (reachable : Reachable g uploadID Orderly run) (quiet : Quiet run) :
    Settled g uploadID run ∧ FinalizesAcked g uploadID run := by
  obtain ⟨_, _, shows_, state⟩ := (reachable_tracked reachable).state
  rcases state with ⟨-, rfl, rfl⟩ | ⟨_, p, at_, carries, -⟩
  · obtain ⟨session, onRecord, -, offset⟩ := shows_.session
    refine ⟨⟨session, onRecord, shows_.file, offset⟩, ?_⟩
    intro call faults r bucket key headers body w' named read apart done
    exact handleFinalize_stores named read shows_.file apart done
  · have flying := carries.inFlight
    rw [quiet p (mem_of_getElem? at_)] at flying
    cases flying

end

namespace Sample

def config : Config where
  provider := ⟨⟨[], false, true⟩, none⟩
  tiers := fun tier => if tier = tierHot then some [str "hot"] else none
  uploadsDir := [str "uploads"]
  resumableDir := [str "uploads"]
  resumableExpiry := 86400
  maxUploadBytes := 0
  cryptoEnabled := false

def call : Call Unit where
  auth := IdentityPolicies.Sample.env
  fuel := 0
  disk := Disk.sound (str "1")
  db := ⟨str "v1", 7, none, none⟩
  crypto := none
  etag := str "e1"
  versionID := str "v1"
  crc32c data := data
  md5 data := data
  base64 data := data
  parseHTTPTime _ := none
  formatHTTPTime _ := []

def world : World Unit where
  logins := []
  fs := FileTree.empty.set [str "uploads"] .dir
  metadata := ⟨Table.empty, Table.empty, Table.empty⟩
  cache := none
  keys := ()
  uploads := ⟨Table.empty, Table.empty⟩
  sessions := Table.empty

def request (method rawQuery : Bytes) (header : List (Bytes × Bytes)) (body : Answer) : Request where
  method := method
  host := str "localhost:9000"
  path := str "/b/k"
  rawQuery := rawQuery
  header := header
  remoteAddr := str "10.0.0.7:40000"
  contentLength := body.bytes.length
  body := body

/-- A `PATCH` at the beginning of the upload `42`. -/
def patch (body : Answer) : Event Unit :=
  .patch call (request (str "PATCH") (str "uploadId=42") [(str "upload-offset", str "0")] body) (str "b") (str "k")

/-- No call fails, and a write takes three bytes. -/
def sound : Choice := ⟨2, none, ⟨none, none, none, none, none, none, none, none⟩⟩

def created : Option (Reply × World Unit) :=
  handleCreateSession config call ⟨none, none, none⟩ world (request (str "POST") (str "resumable") [] ⟨[], some .eof⟩)
    (str "b") (str "k") (str "42")

/-- The upload `42` as it is created, and then the events. -/
def followed (allowed : Run Unit → Event Unit → Prop) [∀ run, DecidablePred (allowed run)]
    (events : List (Event Unit)) : Option (Run Unit) :=
  created.bind fun out => follow config (str "42") allowed events ⟨out.2, [], []⟩

theorem followed_reachable {allowed : Run Unit → Event Unit → Prop} [∀ run, DecidablePred (allowed run)]
    {events : List (Event Unit)} {run : Run Unit} (done : followed allowed events = some run) :
    Reachable config (str "42") allowed run := by
  obtain ⟨⟨_, _⟩, made, later⟩ := bind_eq_some_iff.mp done
  have answered : created.map (·.1) = some (.sent 201 [(str "Location", str "/b/k?uploadId=42"),
      (str "Upload-Offset", str "0"), (str "X-CipherLake-Upload-Id", str "42"),
      (str "Content-Type", str "application/json")] [] none) := by decide +kernel
  rw [made, map_some] at answered
  cases answered
  exact follow_reachable events (.created (by decide +kernel) made) later

/-- Session and file of the upload `42`, and what was acknowledged. -/
def seen (run : Run Unit) : Option Int × Option Entry × List Bytes :=
  ((run.world.sessions.get (str "42")).map (·.offset), run.world.fs.entry (getTempFilePath config (str "42")), run.acked)

end Sample

open Sample

/-- Session and file that are not together. -/
theorem Sample.not_settled {run : Run Unit} {offset : Int} {acked : List Bytes}
    (seen_ : seen run = (some offset, some (.file content), acked))
    (apart : content ≠ acked.flatten ∨ offset ≠ acked.flatten.length) : ¬ Settled config (str "42") run := by
  rintro ⟨_, onRecord, file, settled⟩
  simp only [seen, onRecord, file, map_some, Prod.mk.injEq, some.injEq, Entry.file.injEq] at seen_
  obtain ⟨rfl, rfl, rfl⟩ := seen_
  rcases apart with content | offset
  · exact content rfl
  · exact offset settled

/-- The events lead to a state without a `PATCH` in flight. -/
theorem Sample.followed_quiet {allowed : Run Unit → Event Unit → Prop} [∀ run, DecidablePred (allowed run)]
    {events : List (Event Unit)} {view : Option Int × Option Entry × List Bytes}
    (done : (followed allowed events).map (fun run => (seen run, decide (Quiet run))) = some (view, true)) :
    ∃ run, Reachable config (str "42") allowed run ∧ Quiet run ∧ seen run = view := by
  obtain ⟨run, ran, shown⟩ := map_eq_some_iff.mp done
  obtain ⟨seen_, quiet⟩ := Prod.mk.inj shown
  exact ⟨run, followed_reachable ran, of_decide_eq_true quiet, seen_⟩

/-- A body that breaks off leaves its bytes in the file without a trace in the
session, and of two bodies sent to the same offset both are acknowledged and
stored, while one of them is counted. -/
theorem file_ahead_of_session : (∃ run, Reachable Sample.config (str "42") (fun _ _ => True) run ∧ Quiet run ∧
      seen run = (some 0, some (.file (str "ab")), []) ∧ ¬ Settled Sample.config (str "42") run) ∧
    ∃ run, Reachable Sample.config (str "42") (fun _ _ => True) run ∧ Quiet run ∧
      seen run = (some 2, some (.file (str "abcd")), [str "ab", str "cd"]) ∧
      ¬ Settled Sample.config (str "42") run := by
  constructor
  · have done : (Sample.followed (fun _ _ => True) (Sample.patch ⟨str "ab", some .unexpectedEOF⟩ ::
        replicate 3 (.advance 0 Sample.sound))).map (fun run => (seen run, decide (Quiet run))) =
        some ((some 0, some (.file (str "ab")), []), true) := by decide +kernel
    obtain ⟨run, reachable, quiet, seen⟩ := Sample.followed_quiet done
    exact ⟨run, reachable, quiet, seen, Sample.not_settled seen (.inl (by decide))⟩
  · have done : (Sample.followed (fun _ _ => True) (Sample.patch ⟨str "ab", some .eof⟩ ::
        Sample.patch ⟨str "cd", some .eof⟩ :: (replicate 7 (.advance 0 Sample.sound) ++
        replicate 7 (.advance 1 Sample.sound)))).map (fun run => (seen run, decide (Quiet run))) =
        some ((some 2, some (.file (str "abcd")), [str "ab", str "cd"]), true) := by decide +kernel
    obtain ⟨run, reachable, quiet, seen⟩ := Sample.followed_quiet done
    exact ⟨run, reachable, quiet, seen, Sample.not_settled seen (.inr (by decide))⟩

/-- A `PATCH` of four bytes, written in two pieces. -/
theorem patch_settled : ∃ run, seen run = (some 4, some (.file (str "abcd")), [str "abcd"]) ∧ Quiet run ∧
      Settled Sample.config (str "42") run ∧ FinalizesAcked Sample.config (str "42") run := by
  have done : (Sample.followed Orderly (Sample.patch ⟨str "abcd", some .eof⟩ ::
      replicate 8 (.advance 0 Sample.sound))).map (fun run => (seen run, decide (Quiet run))) =
      some ((some 4, some (.file (str "abcd")), [str "abcd"]), true) := by decide +kernel
  obtain ⟨run, reachable, quiet, seen⟩ := Sample.followed_quiet done
  exact ⟨run, seen, quiet, orderly_run_settled Sample.config (str "42") run reachable quiet⟩

end CipherLake.Resumable

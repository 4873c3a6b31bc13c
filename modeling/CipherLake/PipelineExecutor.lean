import CipherLake.Lib.GoStrings
import CipherLake.Lib.Table

/-! `PipelineExecutor.Execute`. The steps of a pipeline share one input, whose
content is a reader, so what one plugin reads is gone for the next. A step that
fails ends the execution only if its plugin was found, and one that is to be
skipped when it fails is put on record as completed. -/
namespace CipherLake.PipelineExecutor
open Lib List

/-- Of the content there is what is still to be read. -/
structure ObjectInput where
  (key bucket content : Bytes)
  size : Int
  contentType : Bytes
  userMetadata : List (Bytes × Bytes)

structure ObjectOutput where
  (key content : Bytes)
  size : Int
  contentType : Bytes
  metadata : List (Bytes × Bytes)

structure ProcessResult where
  outputs : List (Option ObjectOutput)
  updatedMetadata : Table Bytes Bytes
  error : Option Bytes

/-- What `Process` returns, and the input as it leaves it. -/
structure Processed where
  result : Option ProcessResult
  err : Option Bytes
  input : ObjectInput

/-- A plugin, which need not do the same at every step. -/
abbrev Plugin := Nat → ObjectInput → Processed

structure PipelineStep where
  (name plugin output : Bytes)
  inline : Bool
  onError : Bytes

structure Pipeline where
  name : Bytes
  steps : List PipelineStep

inductive ExecutionStatus where
  | unset
  | pending
  | running
  | completed
  | failed
  | skipped
  deriving DecidableEq

structure StepResult where
  stepName : Bytes
  status : ExecutionStatus
  outputKeys : List Bytes
  error : Bytes
  duration : Int

/-- The place of a step that has not been recorded. -/
def StepResult.empty : StepResult := ⟨[], .unset, [], [], 0⟩

@[simp] theorem StepResult.status_empty : StepResult.empty.status = .unset := rfl

structure PipelineExecution where
  (id pipeline objectKey bucket : Bytes)
  status : ExecutionStatus
  startedAt : Int
  completedAt : Option Int
  steps : List StepResult
  error : Bytes

structure Executor where
  plugins : Bytes → Option Plugin
  wasmProvider : Option (Bytes → Option Plugin)
  config : Option (List Pipeline)
  results : Table Bytes PipelineExecution

/-- The library, the clock and the identifiers drawn, for each output of a step
one. -/
structure Env where
  replaceAll : (s old new : Bytes) → Bytes
  extensionsByType : Bytes → List Bytes
  executionID : Bytes
  outputID : Nat → Nat → Bytes
  (startedAt completedAt : Int)
  elapsed : Nat → Int

def findPipeline (e : Executor) (name : Bytes) : Except Bytes Pipeline :=
  match e.config.bind fun pipelines => pipelines.find? (·.name = name) with
  | none => .error (str "pipeline not found")
  | some pipeline => .ok pipeline

def getPlugin (e : Executor) (name : Bytes) : Option Plugin :=
  match e.plugins name with
  | some plugin => some plugin
  | none => e.wasmProvider.bind fun getPipelineStep => getPipelineStep name

section
variable (env : Env)

def extensionFromMime (mimeType : Bytes) : Bytes :=
  match env.extensionsByType mimeType with
  | ext :: _ => trimPrefix ext (str ".")
  | [] => []

def expandOutputPath (pattern originalKey uuid : Bytes) (output : ObjectOutput) : Bytes :=
  let result := env.replaceAll (env.replaceAll pattern (str "\x7bkey\x7d") originalKey) (str "\x7buuid\x7d")
    (uuid.take 8)
  if output.contentType ≠ [] ∧ extensionFromMime env output.contentType ≠ [] then
    result ++ str "." ++ extensionFromMime env output.contentType
  else result

/-- The output of an inline step that becomes the content; it may be nil. -/
def firstOutput (step : PipelineStep) (result : Option ProcessResult) : Option (Option ObjectOutput) :=
  if step.inline then result.bind (·.outputs.head?) else none

def replaceContent (input : ObjectInput) (output : ObjectOutput) : ObjectInput :=
  { input with
    content := output.content
    size := if output.size > 0 then output.size else input.size
    contentType := if output.contentType ≠ [] then output.contentType else input.contentType }

/-- How the loop goes on after a step, with what is at the step's place in the
record of the execution. -/
inductive Next where
  | goOn (record : StepResult) (input : ObjectInput) (total : ProcessResult)
  | halt (record : StepResult) (total : ProcessResult)
  | panic (record : StepResult)

/-- The end of a step that goes on to its outputs. A nil output that is to become
the content is dereferenced. -/
def conclude (i : Nat) (step : PipelineStep) (noted record : StepResult) (done : Processed) (total : ProcessResult) :
    Next :=
  let result := done.result.getD ⟨[], Table.empty, none⟩
  let keys := result.outputs.zipIdx.filterMap fun e =>
    e.1.map (expandOutputPath env step.output done.input.key (env.outputID i e.2))
  let record := { record with duration := env.elapsed i, outputKeys := keys, status := .completed }
  let total := { total with
    updatedMetadata := result.updatedMetadata.entries.foldl (fun t e => t.put e.1 e.2) total.updatedMetadata
    outputs := if step.inline then total.outputs else total.outputs ++ result.outputs }
  match firstOutput step done.result with
  | some none => .panic noted
  | some (some output) => .goOn record (replaceContent done.input output) total
  | none => .goOn record done.input total

/-- One round of the loop in `Execute`. -/
def runStep (e : Executor) (i : Nat) (step : PipelineStep) (input : ObjectInput) (total : ProcessResult) : Next :=
  let running : StepResult := ⟨step.name, .running, [], [], 0⟩
  match getPlugin e step.plugin with
  | none => .goOn { running with status := .failed, error := str "plugin not found: " ++ step.plugin } input total
  | some plugin =>
    let done := plugin i input
    match done.err with
    | some err =>
      let failed := { running with status := .failed, error := err }
      if step.onError = str "fail" then .halt failed { total with error := some err }
      else if step.onError = str "skip" then conclude env i step failed { failed with status := .skipped } done total
      else .goOn failed done.input total
    | none => conclude env i step .empty running done total

/-- A round of the loop: the step, what it was given, and what it left at its
place in the record of the execution. -/
structure Visit where
  step : PipelineStep
  input : ObjectInput
  record : StepResult

/-- The loop, with the result it ends with unless it panics. -/
def runSteps (e : Executor) : Nat → List PipelineStep → ObjectInput → ProcessResult →
    List Visit × Option ProcessResult
  | _, [], _, total => ([], some total)
  | i, step :: rest, input, total =>
    match runStep env e i step input total with
    | .goOn record input' total' =>
      let later := runSteps e (i + 1) rest input' total'
      (⟨step, input, record⟩ :: later.1, later.2)
    | .halt record total' => ([⟨step, input, record⟩], some total')
    | .panic record => ([⟨step, input, record⟩], none)

def rounds (e : Executor) (pipeline : Pipeline) (input : ObjectInput) : List Visit × Option ProcessResult :=
  runSteps env e 0 pipeline.steps input ⟨[], Table.empty, none⟩

/-- The places of the steps, those that were not reached empty. -/
def places (n : Nat) (visits : List Visit) : List StepResult :=
  visits.map (·.record) ++ replicate (n - visits.length) .empty

/-- `Execute`; nothing is returned by a panic. -/
def execute (e : Executor) (pipelineName : Bytes) (input : ObjectInput) :
    Option (Except Bytes ProcessResult) × Executor :=
  match findPipeline e pipelineName with
  | .error err => (some (.error err), e)
  | .ok pipeline =>
    let (visits, ending) := rounds env e pipeline input
    let exec : PipelineExecution := ⟨env.executionID, pipeline.name, input.key, input.bucket, .running,
      env.startedAt, none, places pipeline.steps.length visits, []⟩
    let keep (exec : PipelineExecution) : Executor := { e with results := e.results.put exec.id exec }
    match ending with
    | none => (none, keep exec)
    | some total =>
      match total.error with
      | some err => (some (.ok total),
          keep { exec with status := .failed, error := err, completedAt := some env.completedAt })
      | none => (some (.ok total), keep { exec with status := .completed, completedAt := some env.completedAt })

end

section
variable (e : Executor)

/-- The step has failed: there is no plugin of its name, or it returned an error. -/
def Fails (i : Nat) (visit : Visit) : Prop :=
  ∀ plugin, getPlugin e visit.step.plugin = some plugin → (plugin i visit.input).err ≠ none

/-- The content an inline step that has not failed produced. -/
def produced (i : Nat) (visit : Visit) : Option Bytes :=
  match getPlugin e visit.step.plugin with
  | none => none
  | some plugin =>
    let done := plugin i visit.input
    if done.err = none then (firstOutput visit.step done.result).join.map (·.content) else none

/-- The content the last of the steps before produced, counted from step `i` on. -/
def complete : Nat → Bytes → List Visit → Bytes
  | _, content, [] => content
  | i, content, visit :: rest => complete (i + 1) ((produced e i visit).getD content) rest

def ExecutionStatus.Bad (status : ExecutionStatus) : Prop := status = .failed ∨ status = .skipped

/-- The rounds from step `i` on against the record: a failed step that is to end
the execution does and has it recorded as failed, a step is recorded as failed or
skipped exactly when it has failed, and a plugin is given the complete content. -/
structure Lawful (i : Nat) (content : Bytes) (visits : List Visit) (records : List StepResult) (failed : Prop) :
    Prop where
  stops : ∀ j visit, visits[j]? = some visit → visit.step.onError = str "fail" → Fails e (i + j) visit →
    visits.length = j + 1 ∧ failed
  statuses : ∀ j record, records[j]? = some record →
    (record.status.Bad ↔ ∃ visit, visits[j]? = some visit ∧ Fails e (i + j) visit)
  contents : ∀ j visit, visits[j]? = some visit → getPlugin e visit.step.plugin ≠ none →
    visit.input.content = complete e i content (visits.take j)

/-- What is on record of the execution is lawful. -/
def Obeys (env : Env) (pipelineName : Bytes) (input : ObjectInput) : Prop :=
  ∀ pipeline exec, findPipeline e pipelineName = .ok pipeline →
    (execute env e pipelineName input).2.results.get env.executionID = some exec →
    Lawful e 0 input.content (rounds env e pipeline input).1 exec.steps (exec.status = .failed)

/-- The content is kept as it is, or nobody is left to read it. -/
def Kept (content left : Bytes) (rest : List PipelineStep) : Prop :=
  left = content ∨ ∀ later ∈ rest, getPlugin e later.plugin = none

/-- No step that is to end the execution lacks its plugin, none that is to be
skipped fails and goes on, and a plugin reads nothing of the content unless its
step replaces it, the execution ends with it or no plugin is called after it. -/
def Orderly : Nat → List PipelineStep → ObjectInput → Prop
  | _, [], _ => True
  | i, step :: rest, input =>
    match getPlugin e step.plugin with
    | none => step.onError ≠ str "fail" ∧ Orderly (i + 1) rest input
    | some plugin =>
      let done := plugin i input
      match done.err with
      | some _ =>
        if step.onError = str "fail" then True
        else if step.onError = str "skip" then firstOutput step done.result = some none
        else Kept e input.content done.input.content rest ∧ Orderly (i + 1) rest done.input
      | none =>
        match firstOutput step done.result with
        | some none => True
        | some (some output) => Orderly (i + 1) rest (replaceContent done.input output)
        | none => Kept e input.content done.input.content rest ∧ Orderly (i + 1) rest done.input

variable {e}

theorem forall_cons {α : Type} {P : Nat → α → Prop} {head : α} {rest : List α} :
    (∀ j a, (head :: rest)[j]? = some a → P j a) ↔ P 0 head ∧ ∀ j a, rest[j]? = some a → P (j + 1) a := by
  constructor
  · intro all
    exact ⟨all 0 head rfl, fun j a found => all (j + 1) a found⟩
  · intro ⟨first, others⟩ j a found
    cases j with
    | zero => cases found; exact first
    | succ j => exact others j a found

variable {content : Bytes}

theorem lawful_cons {i : Nat} {visit : Visit} {visits : List Visit} {record : StepResult}
    {records : List StepResult} {failed : Prop} :
    Lawful e i content (visit :: visits) (record :: records) failed ↔
      (visit.step.onError = str "fail" → Fails e i visit → visits = [] ∧ failed) ∧
      (record.status.Bad ↔ Fails e i visit) ∧
      (getPlugin e visit.step.plugin ≠ none → visit.input.content = content) ∧
      Lawful e (i + 1) ((produced e i visit).getD content) visits records failed := by
  have shift {j : Nat} {later : Visit} : Fails e (i + (j + 1)) later ↔ Fails e (i + 1 + j) later := by
    rw [show i + (j + 1) = i + 1 + j by omega]
  constructor
  · rintro ⟨stops, statuses, contents⟩
    rw [forall_cons] at stops statuses contents
    simp only [shift, length_cons, Nat.add_right_cancel_iff] at stops statuses
    exact ⟨by simpa using stops.1, by simpa using statuses.1, contents.1, stops.2, statuses.2, contents.2⟩
  · rintro ⟨stops, statuses, contents, later⟩
    constructor <;> rw [forall_cons]
    · simp only [shift, length_cons, Nat.add_right_cancel_iff, length_eq_zero_iff]
      exact ⟨stops, later.stops⟩
    · simp only [shift]
      exact ⟨by simpa using statuses, later.statuses⟩
    · exact ⟨contents, later.contents⟩

/-- No step reached, none recorded. -/
theorem lawful_nil {i n : Nat} {failed : Prop} :
    Lawful e i content [] (replicate n .empty) failed := by
  refine ⟨by simp, ?_, by simp⟩
  intro j record found
  simp [(mem_replicate.mp (List.mem_of_getElem? found)).2, ExecutionStatus.Bad]

theorem places_cons {n : Nat} {visit : Visit} {visits : List Visit} :
    places (n + 1) (visit :: visits) = visit.record :: places n visits := by
  simp [places]

variable {env : Env} {i : Nat} {step : PipelineStep} {rest : List PipelineStep} {input : ObjectInput}
  {total : ProcessResult}

/-- The result the loop ended with has an error. -/
def Ended (ending : Option ProcessResult) : Prop := ending.bind (·.error) ≠ none

/-- An execution that has no step left has not failed. -/
theorem runSteps_none (clean : total.error = none) (none_left : (runSteps env e i rest input total).1 = []) :
    ¬Ended (runSteps env e i rest input total).2 := by
  cases rest with
  | nil => simpa [Ended, runSteps] using clean
  | cons step rest =>
    simp only [runSteps] at none_left
    split at none_left <;> cases none_left

/-- Each way a step can go on is one case, and the content the rest is measured
by is the one the step leaves. -/
theorem runSteps_lawful (clean : total.error = none) :
    Lawful e i content (runSteps env e i rest input total).1
        (places rest.length (runSteps env e i rest input total).1) (Ended (runSteps env e i rest input total).2) ↔
      Kept e content input.content rest ∧ Orderly e i rest input := by
  induction rest generalizing i input total content with
  | nil => simpa [runSteps, places, Kept, Orderly] using lawful_nil (n := 0)
  | cons step rest ih =>
    cases found : getPlugin e step.plugin with
    | none =>
      have unended : (runSteps env e (i + 1) rest input total).1 = [] →
        ¬Ended (runSteps env e (i + 1) rest input total).2 := runSteps_none clean
      simp only [runSteps, runStep, found, length_cons, places_cons, lawful_cons, Orderly, Fails, produced,
        Option.getD_none, ih clean]
      simp [ExecutionStatus.Bad, Kept, found]
      tauto
    | some plugin =>
      have kept : Kept e content input.content (step :: rest) ↔ input.content = content := by
        simp [Kept, found]
      rw [kept]
      simp only [runSteps, runStep, conclude, found, length_cons, Orderly]
      cases err : (plugin i input).err with
      | some text =>
        by_cases stop : step.onError = str "fail"
        · simp [stop, lawful_cons, found, Fails, err, ExecutionStatus.Bad, Ended, places, lawful_nil]
        by_cases skip : step.onError = str "skip"
        · simp only [if_neg stop, if_pos skip]
          rcases first : firstOutput step (plugin i input).result with _ | _ | output <;>
            simp [lawful_cons, found, Fails, err, stop, ExecutionStatus.Bad, places, lawful_nil]
        · simp only [if_neg stop, if_neg skip, places_cons, lawful_cons, ih clean]
          simp [found, Fails, produced, err, stop, ExecutionStatus.Bad]
          intro whole _
          rw [whole]
      | none =>
        rcases first : firstOutput step (plugin i input).result with _ | _ | output
        · simp [places_cons, lawful_cons, found, Fails, produced, err, first, ExecutionStatus.Bad, ih, clean]
          intro whole _
          rw [whole]
        · simp [lawful_cons, found, Fails, err, ExecutionStatus.Bad, places, lawful_nil]
        · simp [places_cons, lawful_cons, found, Fails, produced, err, first, ExecutionStatus.Bad, ih, clean,
            Kept, replaceContent]

variable {pipelineName : Bytes}

theorem execute_recorded {pipeline : Pipeline} (found : findPipeline e pipelineName = .ok pipeline) :
    ∃ exec, (execute env e pipelineName input).2.results.get env.executionID = some exec ∧
      exec.steps = places pipeline.steps.length (rounds env e pipeline input).1 ∧
      (exec.status = .failed ↔ Ended (rounds env e pipeline input).2) := by
  simp only [execute, found]
  rcases ending : (rounds env e pipeline input).2 with _ | ⟨_, _, _ | _⟩ <;>
    simp [Ended]

/-- The record of an execution is lawful exactly when its steps are orderly. -/
theorem obeys_iff_orderly : Obeys e env pipelineName input ↔
      ∀ pipeline, findPipeline e pipelineName = .ok pipeline → Orderly e 0 pipeline.steps input := by
  constructor
  · intro obeys pipeline found
    obtain ⟨exec, recorded, steps, failed⟩ := execute_recorded found
    have lawful := obeys pipeline exec found recorded
    rw [steps, failed] at lawful
    exact ((runSteps_lawful rfl).mp lawful).2
  · intro orderly pipeline exec found recorded
    obtain ⟨_, recorded', steps, failed⟩ := execute_recorded found
    cases recorded.symm.trans recorded'
    rw [steps, failed]
    exact (runSteps_lawful rfl).mpr ⟨.inl rfl, orderly pipeline found⟩
end

namespace Sample

def env : Env := ⟨fun s _ _ => s, fun _ => [], str "1", fun _ _ => [], 0, 1, fun _ => 0⟩

/-- The scanner is not registered; the step that needs it is to end the execution
when it fails. -/
def executor : Executor where
  plugins name := if name = str "metadata_extract" then some fun _ input => ⟨none, none, input⟩ else none
  wasmProvider := none
  config := some [⟨str "ingest", [⟨str "scan", str "virus_scan", [], false, str "fail"⟩,
    ⟨str "meta", str "metadata_extract", [], false, str "fail"⟩]⟩]
  results := Table.empty

def input : ObjectInput := ⟨str "k", str "b", str "data", 4, [], []⟩

end Sample

open Sample in
/-- The step after the one that failed is run and the execution is completed. -/
theorem missing_plugin_ends_nothing : ((execute env executor (str "ingest") input).2.results.get env.executionID).map
        (fun exec => (exec.status, exec.steps.map (·.status))) = some (.completed, [.failed, .completed]) ∧
      ¬Obeys executor env (str "ingest") input := by
  refine ⟨rfl, ?_⟩
  intro obeys
  have stops := (obeys _ _ rfl rfl).stops 0 _ rfl rfl (by rintro - ⟨⟩)
  cases stops.1

end CipherLake.PipelineExecutor

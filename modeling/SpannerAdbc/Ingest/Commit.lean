import Mathlib.Data.List.Infix
import SpannerAdbc.Ingest.Range

/-!
# SpannerAdbc.Ingest.Commit

How a chunk of an autocommit ingest reaches the server: in a write-only transaction, which is
bisected when the server finds too many mutations in it, or through BatchWrite.

The programs are over any state `σ`. `Env` holds what is not the driver's own: the Arrow conversion
of a row, the two requests with the deadline and the cancel that apply to them, and the probe for a
table.
-/

namespace SpannerAdbc
namespace Ingest

open Lib

/-! ## Errors of an ingest -/

def countNote (committed : Nat) : List Char :=
  (toString committed).toList ++ " row(s) from this bulk ingest were already committed and ".toList ++
    "remain in the table".toList

def unknownNote : List Char :=
  "this chunk's own commit outcome is unknown — it may still have landed server-side, so ".toList ++
    "retrying could duplicate rows".toList

def outcomeUnknown (error : Error) : Bool := error.status == .timeout || error.status == .cancelled

def noteRowsAlreadyCommitted (error : Error) (committed : Nat) : Error :=
  if committed = 0 ∧ outcomeUnknown error = false then error
  else
    let note := if committed > 0 then countNote committed else []
    let note :=
      if outcomeUnknown error then
        (if note.isEmpty then note else note ++ "; ".toList) ++ unknownNote
      else note
    annotate error fun message => message ++ " (".toList ++ note ++ ")".toList

def committedText : List Char :=
  " row(s) from this bulk ingest were already committed and remain in the table".toList

def unknownText : List Char :=
  "this chunk's own commit outcome is unknown — ".toList ++
    "it may still have landed server-side, so retrying could duplicate rows".toList

/-- What an error ends in behind `committed` rows, with the outcome of its own commit known or
unknown. -/
def rowsReport : (committed : Nat) → (unknown : Bool) → List Char
  | 0, false => []
  | 0, true => " (".toList ++ unknownText ++ ")".toList
  | k + 1, false => " (".toList ++ (toString (k + 1)).toList ++ committedText ++ ")".toList
  | k + 1, true => " (".toList ++ (toString (k + 1)).toList ++ committedText ++ "; ".toList ++
      unknownText ++ ")".toList

/-- The error with the rows it leaves behind. -/
def behind (error : Error) (committed : Nat) : Error :=
  { error with message := error.message ++ rowsReport committed (outcomeUnknown error) }

theorem countNote_eq (k : Nat) : countNote k = (toString k).toList ++ committedText := by
  have htext : " row(s) from this bulk ingest were already committed and ".toList ++
      "remain in the table".toList = committedText := by
    unfold committedText
    decide +kernel
  rw [countNote, List.append_assoc, htext]

theorem unknownNote_eq : unknownNote = unknownText := by
  unfold unknownNote unknownText
  decide +kernel

theorem noteRowsAlreadyCommitted_eq (error : Error) (committed : Nat) :
    noteRowsAlreadyCommitted error committed = behind error committed := by
  unfold noteRowsAlreadyCommitted behind annotate
  cases committed with
  | zero => cases outcomeUnknown error <;> simp [rowsReport, unknownNote_eq]
  | succ k =>
    cases outcomeUnknown error <;> simp [rowsReport, unknownNote_eq, countNote_eq]

/-- The status and the phrase of the server's rejection of a commit with too many mutations. -/
def isMutationLimitExceeded (error : Error) : Bool :=
  error.status == .invalidArguments &&
    decide ("too many mutations".toList <:+: error.message.map Char.toLower)

/-! ## BatchWrite -/

structure BatchWriteResponse where
  indexes : List Nat
  status : Option RpcStatus

/-- The driver's own end of a request: the deadline of `with_timeout`, or a cancel. -/
inductive Interrupt where
  | timedOut (seconds : List Char)
  | cancelled

def Interrupt.error : Interrupt → Error
  | .timedOut seconds => timeoutErr seconds "spanner.rpc.timeout_seconds.update".toList
  | .cancelled => cancelledErr

/-- How a response stream ends. -/
inductive StreamTail where
  | finished
  | failed (error : Error)
  | interrupted (cause : Interrupt)

/-- What comes of a BatchWrite request. -/
inductive BatchStream where
  | refused (error : Error)
  | interrupted (cause : Interrupt)
  | opened (responses : List BatchWriteResponse) (tail : StreamTail)

/-- The loop over the streamed responses. -/
def readResponses (codeOf : Int → Code) (priorTotal : Nat) :
    List BatchWriteResponse → StreamTail → Nat → Option Error → Except Error Nat
  | [], .finished, applied, some error =>
    .error (noteRowsAlreadyCommitted error (priorTotal + applied))
  | [], .finished, applied, none => .ok applied
  | [], .failed error, applied, _ => .error (noteRowsAlreadyCommitted error (priorTotal + applied))
  | [], .interrupted cause, _, _ => .error cause.error
  | response :: responses, tail, applied, firstError =>
    match response.status.filter fun status => status.code != 0, firstError with
    | none, _ =>
      readResponses codeOf priorTotal responses tail (applied + response.indexes.length) firstError
    | some status, none =>
      readResponses codeOf priorTotal responses tail applied (some (fromStatusParts codeOf status))
    | some _, some _ => readResponses codeOf priorTotal responses tail applied firstError

/-! ## The programs -/

inductive IngestMode where
  | append
  | create
  | createAppend
  | replace
  deriving DecidableEq, Repr

/-- The fields of the statement that an ingest reads. -/
structure Job (δ : Type) where
  table : List Char
  targetDbSchema : Option (List Char)
  ingestMode : Option IngestMode
  ingestBatchWrite : Bool
  bound : List (Batch δ)

structure Env (σ δ μ : Type) where
  insertMutation : List Char → Batch δ → Nat → Except Error μ
  /-- A write-only transaction with these mutations. -/
  write : List μ → Prog Error σ Unit
  executeStreaming : List (List μ) → Prog Error σ BatchStream
  codeOf : Int → Code
  tableExists : Prog Error σ Bool
  /-- The `{:?}` form of a string. -/
  debug : List Char → List Char

section Programs

variable {σ δ μ : Type}

def writeMutationsTxn (write : List μ → Prog Error σ Unit) (mutations : List μ) :
    Prog Error σ Unit :=
  if mutations.isEmpty then pure () else write mutations

variable (env : Env σ δ μ)

def buildNoted (bound : List (Batch δ)) (target : List Char) (start stop priorTotal : Nat) :
    Prog Error σ (List μ) :=
  MonadExcept.ofExcept ((buildRangeMutations env.insertMutation target bound start stop).mapError
    fun error => noteRowsAlreadyCommitted error priorTotal)

theorem exec_buildNoted (bound : List (Batch δ)) (target : List Char)
    (start stop priorTotal : Nat) (s : σ) :
    (buildNoted env bound target start stop priorTotal).exec s =
      ((convertRows env.insertMutation target (rangeRows bound start stop)).mapError
        fun e => noteRowsAlreadyCommitted e priorTotal, s) := by
  unfold buildNoted
  rw [buildRangeMutations_eq, Prog.exec_ofExcept]

def writeMutationRange (bound : List (Batch δ)) (target : List Char)
    (start stop priorTotal : Nat) : Prog Error σ Nat := do
  let mutations ← buildNoted env bound target start stop priorTotal
  let count := mutations.length
  match ← (writeMutationsTxn env.write mutations).attempt with
  | .ok () => return count
  | .error error =>
    if _h : stop - start > 1 ∧ isMutationLimitExceeded error = true then
      let mid := start + (stop - start) / 2
      let left ← writeMutationRange bound target start mid priorTotal
      let right ← writeMutationRange bound target mid stop (priorTotal + left)
      return left + right
    else throw (noteRowsAlreadyCommitted error priorTotal)
  termination_by stop - start

def batchWriteChunk (mutations : List μ) (priorTotal : Nat) : Prog Error σ Nat := do
  if mutations.isEmpty then return 0
  -- One group per row.
  let groups := mutations.map fun mutation => [mutation]
  match ← env.executeStreaming groups with
  | .refused error => throw (noteRowsAlreadyCommitted error priorTotal)
  | .interrupted cause => throw cause.error
  | .opened responses tail =>
    MonadExcept.ofExcept (readResponses env.codeOf priorTotal responses tail 0 none)

def commitIngestRange (job : Job δ) (target : List Char) (start stop priorTotal : Nat) :
    Prog Error σ Nat := do
  if start ≥ stop then return 0
  if job.ingestBatchWrite then
    let mutations ← buildNoted env job.bound target start stop priorTotal
    batchWriteChunk env mutations priorTotal
  else writeMutationRange env job.bound target start stop priorTotal

def mutationTable (dbSchema : Option (List Char)) (table : List Char) : List Char :=
  match dbSchema.filter fun schema => schema ≠ [] with
  | some schema => schema ++ ".".toList ++ table
  | none => table

def appendTargetNotFound (table : List Char) : Error :=
  err ("bulk ingest append target table ".toList ++ table ++ " not found".toList) .notFound

def checkEmptyAppendTarget (job : Job δ) (ingested : Nat) : Prog Error σ Unit := do
  if ingested = 0 ∧ job.ingestMode = some .append then
    match ← env.tableExists.attempt with
    | .ok false => throw (appendTargetNotFound (env.debug job.table))
    | _ => return ()

/-- The check of an empty append fails only without rows, if the probe finds no table. -/
theorem exec_checkEmptyAppendTarget (job : Job δ) (n : Nat) {s : σ} {found : Except Error Bool}
    (hprobe : env.tableExists.exec s = (found, s)) :
    (checkEmptyAppendTarget env job n).exec s = (.ok (), s) ∨
    (n = 0 ∧ job.ingestMode = some .append ∧ found = .ok false ∧
      (checkEmptyAppendTarget env job n).exec s =
        (.error (appendTargetNotFound (env.debug job.table)), s)) := by
  unfold checkEmptyAppendTarget
  by_cases hempty : n = 0 ∧ job.ingestMode = some .append
  · rw [if_pos hempty, Prog.exec_bind, Prog.exec_attempt, hprobe]
    rcases found with e | found
    · exact .inl rfl
    · cases found with
      | false => exact .inr ⟨hempty.1, hempty.2, rfl, rfl⟩
      | true => exact .inl rfl
  · rw [if_neg hempty]
    exact .inl rfl

/-- The autocommit path of `run_ingest_mutations`. -/
def ingestAutocommit (job : Job δ) : Prog Error σ Nat := do
  let target := mutationTable job.targetDbSchema job.table
  let total ← ingestWalk (commitIngestRange env job target) job.bound
  checkEmptyAppendTarget env job total
  return total

end Programs

end Ingest
end SpannerAdbc

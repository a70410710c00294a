import Mathlib.Data.Finset.Card
import SpannerAdbc.Ingest.Commit

/-!
# SpannerAdbc.Ingest.BatchWrite

What an autocommit ingest through BatchWrite tells about the rows it leaves behind.

The server applies the groups of a chunk one by one and reports them in a stream of responses, so a
failure can leave any part of a chunk behind. All errors the driver finds itself are annotated with
the rows reported so far. The deadline and a cancel are not: they end the request from outside, and
their error passes by the code that adds the note (`interrupted_chunk_untold`).
`tells_iff_undisturbed` shows that this is the only gap.
-/

namespace SpannerAdbc
namespace Ingest

open Lib Prog

/-- An `OK` or absent status. -/
def BatchWriteResponse.applied (response : BatchWriteResponse) : Bool :=
  (response.status.filter fun status => status.code != 0).isNone

/-- The groups reported applied. -/
def appliedIndexes (responses : List BatchWriteResponse) : List Nat :=
  responses.flatMap fun response => if response.applied then response.indexes else []

/-- The first group status that is not `OK`. -/
def firstFailure (codeOf : Int → Code) (responses : List BatchWriteResponse) : Option Error :=
  responses.findSome? fun response =>
    (response.status.filter fun status => status.code != 0).map (fromStatusParts codeOf)

namespace BatchStream

def reported : BatchStream → List Nat
  | .opened responses _ => appliedIndexes responses
  | _ => []

/-- The deadline or a cancel ends the request. -/
def Interrupted : BatchStream → Prop
  | .interrupted _ | .opened _ (.interrupted _) => True
  | _ => False

/-- The stream runs to its end and all its groups are applied. -/
def Succeeds : BatchStream → Prop
  | .opened responses .finished => ∀ response ∈ responses, response.applied = true
  | _ => False

end BatchStream

/-- What comes of the chunks, by their number, and of the probe for the table. -/
structure BatchServer where
  streams : Nat → BatchStream
  tableExists : Except Error Bool

section Defs

variable {δ μ : Type}

/-- The client with this server behind BatchWrite. The state is the list of the streams so far. -/
def BatchServer.env (server : BatchServer) (client : Env (List BatchStream) δ μ) :
    Env (List BatchStream) δ μ :=
  { client with
    executeStreaming := fun _ => do
      let log ← get
      set (log ++ [server.streams log.length])
      return server.streams log.length
    tableExists := MonadExcept.ofExcept server.tableExists }

/-- The rows reported applied: each chunk's groups, a group once. -/
def rowsReported (log : List BatchStream) : Nat :=
  (log.map fun stream => stream.reported.toFinset.card).sum

/-- The result tells of `n` rows that were reported applied. An error tells of them by what it ends
in; as the bracket opens in front of the count, no other count is read there. -/
def Tells (n : Nat) : Except Error Nat → Prop
  | .ok total => total = n
  | .error e => rowsReport n (outcomeUnknown e) <:+ e.message

/-- No chunk that the ingest comes to send is interrupted. It comes to send a chunk when all chunks
before it have succeeded and its rows can be converted. -/
def Undisturbed (convertible : Nat → Nat → Prop) (streams : Nat → BatchStream) :
    List (Nat × Nat) → Nat → Prop
  | [], _ => True
  | (start, stop) :: ranges, i =>
    (stop ≤ start → Undisturbed convertible streams ranges i) ∧
    (start < stop → convertible start stop → ¬ (streams i).Interrupted ∧
      ((streams i).Succeeds → Undisturbed convertible streams ranges (i + 1)))

end Defs

/-! ## One chunk -/

theorem readResponses_eq (codeOf : Int → Code) (priorTotal : Nat)
    (responses : List BatchWriteResponse) (tail : StreamTail) (applied : Nat)
    (firstError : Option Error) :
    readResponses codeOf priorTotal responses tail applied firstError =
      match tail, firstError.or (firstFailure codeOf responses) with
      | .interrupted cause, _ => .error cause.error
      | .failed error, _ => .error (noteRowsAlreadyCommitted error
          (priorTotal + (applied + (appliedIndexes responses).length)))
      | .finished, some error => .error (noteRowsAlreadyCommitted error
          (priorTotal + (applied + (appliedIndexes responses).length)))
      | .finished, none => .ok (applied + (appliedIndexes responses).length) := by
  induction responses generalizing applied firstError with
  | nil => cases tail <;> cases firstError <;> rfl
  | cons response responses ih =>
    cases hstatus : response.status.filter fun status => status.code != 0 with
    | none =>
      have happlied : response.applied = true := by simp [BatchWriteResponse.applied, hstatus]
      have hindexes : (appliedIndexes (response :: responses)).length =
          response.indexes.length + (appliedIndexes responses).length := by
        simp [appliedIndexes, happlied]
      have hfirst : firstFailure codeOf (response :: responses) = firstFailure codeOf responses := by
        simp [firstFailure, hstatus]
      rw [hindexes, hfirst, ← Nat.add_assoc applied]
      simp only [readResponses, hstatus]
      exact ih _ _
    | some status =>
      have happlied : response.applied = false := by simp [BatchWriteResponse.applied, hstatus]
      have hindexes : appliedIndexes (response :: responses) = appliedIndexes responses := by
        simp [appliedIndexes, happlied]
      have hfirst : firstFailure codeOf (response :: responses) =
          some (fromStatusParts codeOf status) := by
        simp [firstFailure, hstatus]
      rw [hindexes, hfirst]
      cases firstError with
      | none =>
        simp only [readResponses, hstatus]
        exact (ih _ _).trans (by simp)
      | some error =>
        simp only [readResponses, hstatus]
        exact (ih _ _).trans (by simp)

theorem firstFailure_eq_none (codeOf : Int → Code) (responses : List BatchWriteResponse) :
    firstFailure codeOf responses = none ↔ ∀ response ∈ responses, response.applied = true := by
  simp only [firstFailure, List.findSome?_eq_none_iff, Option.map_eq_none_iff,
    BatchWriteResponse.applied, Option.isNone_iff_eq_none]

/-- The result of a chunk behind `priorTotal` rows. -/
def chunkResult (codeOf : Int → Code) (priorTotal : Nat) : BatchStream → Except Error Nat
  | .refused error => .error (noteRowsAlreadyCommitted error priorTotal)
  | .interrupted cause => .error cause.error
  | .opened responses tail => readResponses codeOf priorTotal responses tail 0 none

/-- A chunk is interrupted, or it succeeds, or its error is annotated. -/
theorem chunkResult_cases (codeOf : Int → Code) (priorTotal : Nat) (stream : BatchStream) :
    (stream.Interrupted ∧ ∃ cause : Interrupt,
      chunkResult codeOf priorTotal stream = .error cause.error) ∨
    (¬ stream.Interrupted ∧ stream.Succeeds ∧
      chunkResult codeOf priorTotal stream = .ok stream.reported.length) ∨
    (¬ stream.Interrupted ∧ ¬ stream.Succeeds ∧ ∃ error, chunkResult codeOf priorTotal stream =
      .error (noteRowsAlreadyCommitted error (priorTotal + stream.reported.length))) := by
  cases stream with
  | refused error => exact .inr (.inr ⟨id, id, error, rfl⟩)
  | interrupted cause => exact .inl ⟨trivial, cause, rfl⟩
  | opened responses tail =>
    simp only [chunkResult, BatchStream.reported, readResponses_eq, Option.none_or, Nat.zero_add]
    cases tail with
    | interrupted cause => exact .inl ⟨trivial, cause, rfl⟩
    | failed error => exact .inr (.inr ⟨id, id, error, rfl⟩)
    | finished =>
      cases hfirst : firstFailure codeOf responses with
      | none => exact .inr (.inl ⟨id, (firstFailure_eq_none codeOf responses).mp hfirst, rfl⟩)
      | some error =>
        refine .inr (.inr ⟨id, fun hall => ?_, error, rfl⟩)
        rw [(firstFailure_eq_none codeOf responses).mpr hall] at hfirst
        cases hfirst

theorem getLast?_unknownText : unknownText.getLast? = some 's' := by
  unfold unknownText
  decide +kernel

theorem getLast?_cancelledErr : cancelledErr.message.getLast? = some 't' := by
  show List.getLast? (_ ++ _) = _
  rw [List.getLast?_append_of_ne_nil _ (by decide)]
  decide

theorem unknownText_suffix (n : Nat) : unknownText ++ ")".toList <:+ rowsReport n true := by
  cases n with
  | zero => exact ⟨" (".toList, (List.append_assoc _ _ _).symm⟩
  | succ n => exact ⟨_, (List.append_assoc _ _ _).symm⟩

/-- The error of the deadline or of a cancel says that it is one, and no more. -/
theorem Interrupt.unmarked (cause : Interrupt) : outcomeUnknown cause.error = true ∧
    ¬ unknownText ++ ")".toList <:+ cause.error.message := by
  refine ⟨by cases cause <;> rfl, ?_⟩
  rintro ⟨front, h⟩
  rw [← List.append_assoc] at h
  cases cause with
  | cancelled =>
    have hlast := congrArg List.getLast? h
    rw [List.getLast?_append_of_ne_nil _ (by decide)] at hlast
    have ht : (Interrupt.error .cancelled).message.getLast? = some 't' := getLast?_cancelledErr
    rw [ht] at hlast
    revert hlast
    decide
  | timedOut seconds =>
    -- Both end in a bracket; the characters before it differ.
    have hne : unknownText ≠ [] := by
      intro h0
      have hs := getLast?_unknownText
      rw [h0] at hs
      cases hs
    have hlast := congrArg List.getLast? (List.append_cancel_right h)
    rw [List.getLast?_append_of_ne_nil _ hne, getLast?_unknownText,
      List.getLast?_append_of_ne_nil _ (by decide)] at hlast
    revert hlast
    decide

theorem not_tells_interrupt (n : Nat) (cause : Interrupt) : ¬ Tells n (.error cause.error) := by
  intro h
  rw [Tells, cause.unmarked.1] at h
  exact cause.unmarked.2 ((unknownText_suffix n).trans h)

theorem tells_note (error : Error) (n : Nat) :
    Tells n (.error (noteRowsAlreadyCommitted error n)) := by
  rw [noteRowsAlreadyCommitted_eq]
  exact List.suffix_append _ _

/-! ## All chunks -/

section Run

variable {δ μ : Type} {server : BatchServer} {client : Env (List BatchStream) δ μ} {job : Job δ}
  {target : List Char} {log : List BatchStream}

theorem rowsReported_append (log : List BatchStream) {stream : BatchStream}
    (hnodup : stream.reported.Nodup) :
    rowsReported (log ++ [stream]) = rowsReported log + stream.reported.length := by
  simp [rowsReported, List.toFinset_card_of_nodup hnodup]

/-- A range of rows is converted and sent as one chunk. -/
theorem exec_commitChunk (server : BatchServer) (log : List BatchStream) (priorTotal : Nat)
    {start stop : Nat} (hbw : job.ingestBatchWrite = true)
    (hlt : start < stop) (hstop : stop ≤ rowCount job.bound) {ms : List μ}
    (hms : convertRows client.insertMutation target (rangeRows job.bound start stop) = .ok ms) :
    (commitIngestRange (server.env client) job target start stop priorTotal).exec log =
      (chunkResult client.codeOf priorTotal (server.streams log.length),
        log ++ [server.streams log.length]) := by
  have hne : ms.isEmpty = false := by
    have hlen : ms.length = stop - start := by
      rw [length_of_convertRows hms, length_rangeRows hstop]
    cases ms with
    | nil =>
      rw [List.length_nil] at hlen
      omega
    | cons => rfl
  have hbuild : (buildNoted (server.env client) job.bound target start stop priorTotal).exec log =
      (.ok ms, log) := by
    rw [exec_buildNoted]
    simp only [BatchServer.env, hms]
    rfl
  unfold commitIngestRange
  rw [if_neg (by omega), if_pos hbw, exec_bind_ok hbuild, batchWriteChunk, hne]
  simp only [Bool.false_eq_true, if_false]
  have hsend : ((server.env client).executeStreaming (ms.map fun m => [m])).exec log =
      (.ok (server.streams log.length), log ++ [server.streams log.length]) := rfl
  rw [exec_bind_ok hsend]
  cases server.streams log.length with
  | refused error => rfl
  | interrupted cause => rfl
  | opened responses tail => exact exec_ofExcept _ _

/-- A range with a row that cannot be converted. -/
theorem exec_commitChunk_error {start stop priorTotal : Nat} (hbw : job.ingestBatchWrite = true)
    (hlt : start < stop) {error : Error}
    (hms : convertRows client.insertMutation target (rangeRows job.bound start stop) =
      .error error) :
    (commitIngestRange (server.env client) job target start stop priorTotal).exec log =
      (.error (noteRowsAlreadyCommitted error priorTotal), log) := by
  have hbuild : (buildNoted (server.env client) job.bound target start stop priorTotal).exec log =
      (.error (noteRowsAlreadyCommitted error priorTotal), log) := by
    rw [exec_buildNoted]
    simp only [BatchServer.env, hms]
    rfl
  unfold commitIngestRange
  rw [if_neg (by omega), if_pos hbw, exec_bind_error hbuild]

/-- The condition `Undisturbed` for the rows of a job. -/
def Convertible (client : Env (List BatchStream) δ μ) (job : Job δ) (target : List Char)
    (start stop : Nat) : Prop :=
  ∃ ms, convertRows client.insertMutation target (rangeRows job.bound start stop) = .ok ms

/-- The chunks one after the other: a total of all rows reported applied, or an error that tells of
them exactly if no chunk is interrupted. -/
theorem commitChunks_spec (log : List BatchStream) (hbw : job.ingestBatchWrite = true)
    (honce : ∀ i, (server.streams i).reported.Nodup) {a b : Nat} {ranges : List (Nat × Nat)}
    (ht : Tiles a b ranges) (hb : b ≤ rowCount job.bound) {result : Except Error Nat}
    {log' : List BatchStream}
    (hexec : (commitRanges (commitIngestRange (server.env client) job target) ranges
      (rowsReported log)).exec log = (result, log')) :
    (Tells (rowsReported log') result ↔
      Undisturbed (Convertible client job target) server.streams ranges log.length) ∧
    (∀ n, result = .ok n → n = rowsReported log') := by
  induction ht generalizing log with
  | nil =>
    cases hexec
    simp [Tells, Undisturbed]
  | @cons a m c ranges ham hrest ih =>
    have hmc : m ≤ c := hrest.le
    rw [commitRanges] at hexec
    rcases Nat.eq_or_lt_of_le ham with rfl | hlt
    · have hskip : (commitIngestRange (server.env client) job target a a (rowsReported log)).exec
          log = (.ok 0, log) := by
        simp [commitIngestRange]
      rw [exec_bind_ok hskip] at hexec
      have h := ih _ hb hexec
      refine ⟨h.1.trans ?_, h.2⟩
      simp [Undisturbed]
    · have hund : Undisturbed (Convertible client job target) server.streams ((a, m) :: ranges)
          log.length ↔ (Convertible client job target a m →
            ¬ (server.streams log.length).Interrupted ∧
            ((server.streams log.length).Succeeds → Undisturbed (Convertible client job target)
              server.streams ranges (log.length + 1))) := by
        simp [Undisturbed, hlt, Nat.not_le.mpr hlt]
      rw [hund]
      cases hms : convertRows client.insertMutation target (rangeRows job.bound a m) with
      | error error =>
        rw [exec_bind_error (exec_commitChunk_error hbw hlt hms)] at hexec
        cases hexec
        have hnot : ¬ Convertible client job target a m := by
          rintro ⟨ms, hok⟩
          rw [hms] at hok
          cases hok
        exact ⟨iff_of_true (tells_note error _) fun h => absurd h hnot, by simp⟩
      | ok ms =>
        have hconv : Convertible client job target a m := ⟨ms, hms⟩
        have hchunk := exec_commitChunk server log (rowsReported log) hbw hlt (by omega) hms
        have hsum := rowsReported_append log (honce log.length)
        rcases chunkResult_cases client.codeOf (rowsReported log) (server.streams log.length) with
          ⟨hint, cause, hres⟩ | ⟨hint, hsucc, hres⟩ | ⟨hint, hsucc, error, hres⟩
        · rw [hres] at hchunk
          rw [exec_bind_error hchunk] at hexec
          cases hexec
          exact ⟨iff_of_false (not_tells_interrupt _ cause) fun h => (h hconv).1 hint, by simp⟩
        · rw [hres] at hchunk
          rw [exec_bind_ok hchunk, ← hsum] at hexec
          have h := ih _ hb hexec
          rw [List.length_append, List.length_singleton] at h
          exact ⟨h.1.trans ⟨fun hu _ => ⟨hint, fun _ => hu⟩, fun hu => (hu hconv).2 hsucc⟩, h.2⟩
        · rw [hres] at hchunk
          rw [exec_bind_error hchunk] at hexec
          cases hexec
          refine ⟨iff_of_true ?_ fun _ => ⟨hint, fun h => absurd h hsucc⟩, by simp⟩
          rw [hsum]
          exact tells_note error _

end Run

/-- Autocommit ingest through BatchWrite. The result tells what was reported applied, with every
timeout and cancel marked, exactly if no chunk that is sent is ended by the driver's own deadline or
by a cancel. -/
theorem tells_iff_undisturbed {δ μ : Type} (server : BatchServer)
    (client : Env (List BatchStream) δ μ) (job : Job δ) {target : List Char}
    {result : Except Error Nat} {log : List BatchStream} (hbw : job.ingestBatchWrite = true)
    (htarget : target = mutationTable job.targetDbSchema job.table)
    (honce : ∀ i, (server.streams i).reported.Nodup)
    (hrun : (ingestAutocommit (server.env client) job).exec [] = (result, log)) :
    Tells (rowsReported log) result ↔
      Undisturbed (Convertible client job target) server.streams (chunkRanges job.bound) 0 := by
  subst htarget
  simp only [ingestAutocommit, ingestWalk_eq] at hrun
  cases hexec : Prog.exec (commitRanges (commitIngestRange (server.env client) job
      (mutationTable job.targetDbSchema job.table)) (chunkRanges job.bound) 0) [] with
  | mk res log' =>
  have hspec := commitChunks_spec [] hbw honce (tiles_chunkRanges job.bound) (Nat.le_refl _) hexec
  cases res with
  | error e =>
    rw [exec_bind_error hexec] at hrun
    cases hrun
    exact hspec.1
  | ok n =>
    have hn : n = rowsReported log' := hspec.2 n rfl
    rw [exec_bind_ok hexec] at hrun
    rcases exec_checkEmptyAppendTarget (server.env client) job n
      (exec_ofExcept log' server.tableExists) with hcheck | ⟨hzero, _, _, hcheck⟩
    · rw [exec_bind_ok hcheck] at hrun
      cases hrun
      exact hspec.1
    · rw [exec_bind_error hcheck] at hrun
      cases hrun
      -- Nothing was applied, so the error of an absent table has nothing to tell.
      refine (iff_of_true ?_ hn).trans hspec.1
      rw [← hn, hzero]
      exact List.nil_suffix

/-- The group of the first row is reported applied, and then the deadline passes. -/
def lateServer : BatchServer where
  streams _ := .opened [⟨[0], none⟩] (.interrupted (.timedOut "5".toList))
  tableExists := .ok true

/-- The group of the first row is applied, and that of the second row is not. -/
def duplicateServer : BatchServer where
  streams _ := .opened [⟨[0], none⟩, ⟨[1], some ⟨6, "duplicate key".toList, none⟩⟩] .finished
  tableExists := .ok true

def batchRows : Env (List BatchStream) Unit Nat where
  insertMutation _ _ row := .ok row
  write _ := pure ()
  executeStreaming _ := pure (.opened [] .finished)
  codeOf _ := .alreadyExists
  tableExists := pure true
  debug := id

def twoRowBatch : Job Unit := ⟨"t".toList, none, some .append, true, [⟨2, 1, 16, ()⟩]⟩

theorem tells_iff_undisturbed_duplicate : ∃ result log,
    (ingestAutocommit (duplicateServer.env batchRows) twoRowBatch).exec [] = (result, log) ∧
    Tells (rowsReported log) result := by
  refine ⟨_, _, (Prod.eta _).symm, (tells_iff_undisturbed duplicateServer batchRows twoRowBatch rfl
    rfl ?_ (Prod.eta _).symm).mpr ?_⟩
  · intro i
    simp [duplicateServer, BatchStream.reported, appliedIndexes, BatchWriteResponse.applied]
  · have hranges : chunkRanges twoRowBatch.bound = [(0, 2)] := rfl
    rw [hranges]
    simp [Undisturbed, duplicateServer, BatchStream.Interrupted]

/-- One row is reported applied, and the error says neither this nor that the outcome of the other
row is unknown. -/
theorem interrupted_chunk_untold : ∃ e log,
    (ingestAutocommit (lateServer.env batchRows) twoRowBatch).exec [] = (.error e, log) ∧
    rowsReported log = 1 ∧ e.status = .timeout ∧
    ¬ "1 row(s)".toList <:+: e.message ∧ ¬ "outcome is unknown".toList <:+: e.message := by
  refine ⟨Interrupt.error (.timedOut "5".toList), _, rfl, rfl, rfl, ?_, ?_⟩
  · decide +kernel
  · decide +kernel

end Ingest
end SpannerAdbc

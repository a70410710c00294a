import Mathlib.Data.List.Chain
import SpannerAdbc.Ingest.Commit

/-!
# SpannerAdbc.Ingest.WriteOnly

What an autocommit ingest through write-only transactions leaves in the table.

The server's side is a `Reply` for each attempted commit, chosen with the whole history in view.
`Commits` is the grammar of the attempts that one range can lead to: a commit, a failure, or a
rejection for too many mutations followed by the attempts of the two halves.
`writeMutationRange_spec` shows that the bisect follows it, and everything else is read off the
grammar by induction.
-/

namespace SpannerAdbc
namespace Ingest

open Lib Prog

/-- What comes of an attempted commit. Only behind a timeout or a cancel is it open whether the
mutations have landed. -/
structure Reply where
  error : Option Error
  landed : Bool
  landed_of_ok : error = none → landed = true
  not_landed : ∀ e, error = some e → outcomeUnknown e = false → landed = false

structure Attempt (μ : Type) where
  mutations : List μ
  reply : Reply

/-- A server answers each attempt in view of the earlier ones. -/
structure Server (μ : Type) where
  commit : List (Attempt μ) → List μ → Reply
  tableExists : List (Attempt μ) → Except Error Bool

section Defs

variable {δ μ : Type}

def Server.write (server : Server μ) (mutations : List μ) : Prog Error (List (Attempt μ)) Unit := do
  let log ← get
  let reply := server.commit log mutations
  set (log ++ [⟨mutations, reply⟩])
  match reply.error with
  | none => return ()
  | some error => throw error

/-- The client with this server behind its write-only transactions. -/
def Server.env (server : Server μ) (client : Env (List (Attempt μ)) δ μ) :
    Env (List (Attempt μ)) δ μ :=
  { client with
    write := server.write
    tableExists := do MonadExcept.ofExcept (server.tableExists (← get)) }

/-- The rows in the table. -/
def inTable (log : List (Attempt μ)) : List μ :=
  log.flatMap fun a => if a.reply.landed then a.mutations else []

/-- The rows whose commit has been acknowledged. -/
def acked (log : List (Attempt μ)) : List μ :=
  log.flatMap fun a => if a.reply.error.isNone then a.mutations else []

/-- Behind a failed attempt comes only the first half of a range that was rejected for too many
mutations and has more than one row. -/
def Splits (a b : Attempt μ) : Prop :=
  ∀ e, a.reply.error = some e → isMutationLimitExceeded e = true ∧ 1 < a.mutations.length ∧
    b.mutations = a.mutations.take (a.mutations.length / 2)

/-- The attempts for a range with the mutations `ms`, and the error they end in. -/
inductive Commits : List μ → List (Attempt μ) → Option Error → Prop where
  | done {ms : List μ} {reply : Reply} : reply.error = none → Commits ms [⟨ms, reply⟩] none
  | failed {ms : List μ} {reply : Reply} {e : Error} : reply.error = some e →
      Commits ms [⟨ms, reply⟩] (some e)
  | left {ms : List μ} {reply : Reply} {e e' : Error} {l : List (Attempt μ)} :
      reply.error = some e → 1 < ms.length → isMutationLimitExceeded e = true →
      Commits (ms.take (ms.length / 2)) l (some e') → Commits ms (⟨ms, reply⟩ :: l) (some e')
  | both {ms : List μ} {reply : Reply} {e : Error} {l r : List (Attempt μ)} {res : Option Error} :
      reply.error = some e → 1 < ms.length → isMutationLimitExceeded e = true →
      Commits (ms.take (ms.length / 2)) l none → Commits (ms.drop (ms.length / 2)) r res →
      Commits ms (⟨ms, reply⟩ :: (l ++ r)) res

end Defs

/-! ## One range -/

section Range

variable {δ μ : Type} {server : Server μ} {client : Env (List (Attempt μ)) δ μ}
  {bound : List (Batch δ)} {target : List Char} {l : List (Attempt μ)} {res : Option Error}

@[simp] theorem inTable_nil : inTable ([] : List (Attempt μ)) = [] := rfl

@[simp] theorem inTable_append (l r : List (Attempt μ)) :
    inTable (l ++ r) = inTable l ++ inTable r := by
  simp [inTable]

@[simp] theorem acked_append (l r : List (Attempt μ)) : acked (l ++ r) = acked l ++ acked r := by
  simp [acked]

theorem inTable_cons (a : Attempt μ) (l : List (Attempt μ)) :
    inTable (a :: l) = (if a.reply.landed then a.mutations else []) ++ inTable l := by
  simp [inTable]

theorem acked_cons (a : Attempt μ) (l : List (Attempt μ)) :
    acked (a :: l) = (if a.reply.error.isNone then a.mutations else []) ++ acked l := by
  simp [acked]

/-- The result of a range: its number of rows, or the error with the rows before it. -/
def rangeResult (ms : List μ) (priorTotal : Nat) (l : List (Attempt μ)) :
    Option Error → Except Error Nat
  | none => .ok ms.length
  | some e => .error (noteRowsAlreadyCommitted e (priorTotal + (acked l).length))

theorem exec_write (ms : List μ) (log : List (Attempt μ)) : (server.write ms).exec log =
    (match (server.commit log ms).error with
      | none => .ok ()
      | some e => .error e, log ++ [⟨ms, server.commit log ms⟩]) := by
  unfold Server.write
  rw [exec_bind, exec_get]
  simp only
  rw [exec_bind, exec_set]
  simp only
  cases (server.commit log ms).error <;> rfl

theorem outcomeUnknown_of_limit {e : Error} (h : isMutationLimitExceeded e = true) :
    outcomeUnknown e = false := by
  simp only [isMutationLimitExceeded, Bool.and_eq_true, beq_iff_eq] at h
  simp [outcomeUnknown, h.1]

/-- A range without an error is acknowledged and in the table, row by row. -/
theorem Commits.complete {ms : List μ} (h : Commits ms l res) (hres : res = none) :
    acked l = ms ∧ inTable l = ms := by
  induction h with
  | done hok => simp [acked, inTable, hok, Reply.landed_of_ok _ hok]
  | failed => cases hres
  | left => cases hres
  | @both ms reply e l r res he hlen hlimit _ _ ihl ihr =>
    obtain ⟨hal, htl⟩ := ihl rfl
    obtain ⟨har, htr⟩ := ihr hres
    have hnot : reply.landed = false := reply.not_landed e he (outcomeUnknown_of_limit hlimit)
    rw [acked_cons, inTable_cons, acked_append, inTable_append, hal, har, htl, htr]
    simp [he, hnot]

/-- A range that ends in an error: its first rows are acknowledged and in the table, and the last
attempt is for rows behind them. Only that attempt can have left more in the table. -/
theorem Commits.partly {ms : List μ} (h : Commits ms l res) {e : Error} (hres : res = some e) :
    ∃ a, l.getLast? = some a ∧ a.reply.error = some e ∧ acked l ++ a.mutations <+: ms ∧
      inTable l = acked l ++ if a.reply.landed then a.mutations else [] := by
  induction h with
  | done => cases hres
  | @failed ms reply e₀ he =>
    cases hres
    exact ⟨⟨ms, reply⟩, rfl, he, by simp [acked, he], by simp [inTable, acked, he]⟩
  | @left ms reply e₀ e' l he hlen hlimit _ ih =>
    obtain ⟨a, hlast, hfailed, hpre, htable⟩ := ih hres
    have hnot : reply.landed = false := reply.not_landed e₀ he (outcomeUnknown_of_limit hlimit)
    refine ⟨a, by simp [List.getLast?_cons, hlast], hfailed, ?_, ?_⟩
    · rw [acked_cons, he]
      exact hpre.trans (List.take_prefix _ _)
    · simp [inTable_cons, acked_cons, he, hnot, htable]
  | @both ms reply e₀ l r res he hlen hlimit hl _ _ ihr =>
    obtain ⟨a, hlast, hfailed, hpre, htable⟩ := ihr hres
    obtain ⟨hal, htl⟩ := hl.complete rfl
    have hnot : reply.landed = false := reply.not_landed e₀ he (outcomeUnknown_of_limit hlimit)
    refine ⟨a, by simp [List.getLast?_cons, List.getLast?_append, hlast], hfailed, ?_, ?_⟩
    · rw [acked_cons, he, acked_append, hal]
      have := (List.prefix_append_right_inj (ms.take (ms.length / 2))).mpr hpre
      rw [List.take_append_drop] at this
      simpa using this
    · simp [inTable_cons, inTable_append, acked_cons, he, hnot, hal, htl, htable]

theorem Commits.mutations_ne {ms : List μ} (h : Commits ms l res) (hne : ms ≠ []) :
    ∀ a ∈ l, a.mutations ≠ [] := by
  have half : ∀ {ms : List μ}, 1 < ms.length →
      ms.take (ms.length / 2) ≠ [] ∧ ms.drop (ms.length / 2) ≠ [] := by
    intro ms hlen
    constructor
    · intro h0
      have := congrArg List.length h0
      rw [List.length_take, List.length_nil] at this
      omega
    · intro h0
      have := congrArg List.length h0
      rw [List.length_drop, List.length_nil] at this
      omega
  induction h with
  | done | failed => simpa using hne
  | left he hlen hlimit _ ih =>
    intro a ha
    rcases List.mem_cons.mp ha with rfl | ha
    · exact hne
    · exact ih (half hlen).1 a ha
  | both he hlen hlimit _ _ ihl ihr =>
    intro a ha
    rcases List.mem_cons.mp ha with rfl | ha
    · exact hne
    · rcases List.mem_append.mp ha with ha | ha
      · exact ihl (half hlen).1 a ha
      · exact ihr (half hlen).2 a ha

/-- A range of `n` rows takes at most `2 * n - 1` attempts. -/
theorem Commits.length_lt {ms : List μ} (h : Commits ms l res) (hne : 0 < ms.length) :
    l.length < 2 * ms.length := by
  induction h with
  | done | failed =>
    rw [List.length_singleton]
    omega
  | left he hlen hlimit _ ih =>
    rw [List.length_take] at ih
    rw [List.length_cons]
    have := ih (by omega)
    omega
  | both he hlen hlimit _ _ ihl ihr =>
    rw [List.length_take] at ihl
    rw [List.length_drop] at ihr
    rw [List.length_cons, List.length_append]
    have := ihl (by omega)
    have := ihr (by omega)
    omega

theorem Commits.head {ms : List μ} (h : Commits ms l res) : ∀ a ∈ l.head?, a.mutations = ms := by
  cases h <;> simp

/-- A range without an error ends in an acknowledged commit. -/
theorem Commits.last {ms : List μ} (h : Commits ms l res) (hres : res = none) :
    ∀ a ∈ l.getLast?, a.reply.error = none := by
  induction h with
  | done hok => simpa using hok
  | failed => cases hres
  | left => cases hres
  | @both ms reply e l r res he hlen hlimit hl hr _ ihr =>
    have hne : r ≠ [] := by
      cases hr <;> simp
    intro a ha
    rw [← List.cons_append, List.getLast?_append_of_ne_nil _ hne] at ha
    exact ihr hres a ha

/-- The range is split only behind rejections for too many mutations. -/
theorem Commits.splits {ms : List μ} (h : Commits ms l res) : l.IsChain Splits := by
  induction h with
  | done | failed => exact .singleton _
  | @left ms reply e e' l he hlen hlimit hl ih =>
    refine List.isChain_cons.mpr ⟨?_, ih⟩
    intro b hb e₀ he₀
    rw [he] at he₀
    cases he₀
    exact ⟨hlimit, hlen, hl.head b hb⟩
  | @both ms reply e l r res he hlen hlimit hl hr ihl ihr =>
    have hne : l ≠ [] := by
      cases hl <;> simp
    refine List.isChain_cons.mpr ⟨?_, List.isChain_append.mpr ⟨ihl, ihr, ?_⟩⟩
    · intro b hb e₀ he₀
      rw [he] at he₀
      cases he₀
      rw [List.head?_append_of_ne_nil _ hne] at hb
      exact ⟨hlimit, hlen, hl.head b hb⟩
    · intro a ha b hb e₀ he₀
      rw [hl.last rfl a ha] at he₀
      cases he₀

theorem writeMutationRange_spec (server : Server μ) (priorTotal : Nat) (log : List (Attempt μ))
    {start stop : Nat} {ms : List μ} (hlt : start < stop) (hstop : stop ≤ rowCount bound)
    (hms : convertRows client.insertMutation target (rangeRows bound start stop) = .ok ms) :
    ∃ l res, Commits ms l res ∧
      (writeMutationRange (server.env client) bound target start stop priorTotal).exec log =
        (rangeResult ms priorTotal l res, log ++ l) := by
  induction hn : stop - start using Nat.strongRecOn generalizing start stop priorTotal ms log with
  | ind n ih =>
    have hlen : ms.length = stop - start := by
      rw [length_of_convertRows hms, length_rangeRows hstop]
    have hbuild : (buildNoted (server.env client) bound target start stop priorTotal).exec log =
        (.ok ms, log) := by
      rw [exec_buildNoted]
      simp only [Server.env, hms]
      rfl
    have hwrite : writeMutationsTxn (server.env client).write ms = server.write ms := by
      have hne : ms.isEmpty = false := by
        cases ms with
        | nil => rw [List.length_nil] at hlen; omega
        | cons => rfl
      simp [writeMutationsTxn, hne, Server.env]
    rw [writeMutationRange, exec_bind_ok hbuild, hwrite, exec_bind, exec_attempt, exec_write]
    cases he : (server.commit log ms).error with
    | none => exact ⟨[⟨ms, server.commit log ms⟩], none, .done he, rfl⟩
    | some e =>
      simp only
      by_cases hsplit : stop - start > 1 ∧ isMutationLimitExceeded e = true
      · rw [dif_pos hsplit]
        have hhalf : start + (stop - start) / 2 - start = ms.length / 2 := by omega
        have hleft : convertRows client.insertMutation target
            (rangeRows bound start (start + (stop - start) / 2)) = .ok (ms.take (ms.length / 2)) := by
          rw [rangeRows_left stop (by omega) (by omega), hhalf]
          exact convertRows_take _ hms
        have hright : convertRows client.insertMutation target
            (rangeRows bound (start + (stop - start) / 2) stop) = .ok (ms.drop (ms.length / 2)) := by
          rw [rangeRows_right start (by omega), hhalf]
          exact convertRows_drop _ hms
        have hgt : 1 < ms.length := by omega
        obtain ⟨l, resl, hcl, hel⟩ := ih _ (by omega) priorTotal
          (log ++ [⟨ms, server.commit log ms⟩]) (by omega) (by omega) hleft rfl
        cases resl with
        | some e' =>
          refine ⟨⟨ms, server.commit log ms⟩ :: l, some e', .left he hgt hsplit.2 hcl, ?_⟩
          rw [exec_bind_error hel]
          simp [rangeResult, acked_cons, he]
        | none =>
          obtain ⟨r, resr, hcr, her⟩ := ih _ (by omega)
            (priorTotal + (ms.take (ms.length / 2)).length)
            (log ++ [⟨ms, server.commit log ms⟩] ++ l) (by omega) hstop hright rfl
          refine ⟨⟨ms, server.commit log ms⟩ :: (l ++ r), resr, .both he hgt hsplit.2 hcl hcr, ?_⟩
          rw [exec_bind_ok hel]
          have hacked := (hcl.complete rfl).1
          cases resr with
          | some e' =>
            rw [exec_bind_error her]
            simp [rangeResult, acked_cons, he, hacked, Nat.add_assoc]
          | none =>
            rw [exec_bind_ok her]
            simp [rangeResult]
            omega
      · rw [dif_neg hsplit]
        exact ⟨[⟨ms, server.commit log ms⟩], some e, .failed he, by simp [rangeResult, acked, he]⟩

end Range

/-! ## All ranges -/

section Run

variable {δ μ : Type} {l : List (Attempt μ)}

/-- What holds of the attempts at any time, with `n` the rows they are for. -/
structure Sound (log : List (Attempt μ)) (n : Nat) : Prop where
  mutations_ne : ∀ a ∈ log, a.mutations ≠ []
  splits : log.IsChain Splits
  length_le : log.length ≤ 2 * n

section Ends

variable (convert : List (Batch δ × Nat) → Except Error (List μ)) (rows : List (Batch δ × Nat))
  (log : List (Attempt μ))

/-- The first `k` rows are committed, and nothing else. -/
structure Settled (k : Nat) : Prop where
  converted : convert (rows.take k) = .ok (acked log)
  table : inTable log = acked log
  sound : Sound log k
  last : ∀ a ∈ log.getLast?, a.reply.error = none

/-- Where the error comes from: the commit of the rows behind the acknowledged ones, which the table
has only if they have landed all the same, or the conversion of such rows. -/
inductive FailedAt (error : Error) : Prop where
  | commit {a : Attempt μ} : log.getLast? = some a → a.reply.error = some error →
      convert ((rows.drop (acked log).length).take a.mutations.length) = .ok a.mutations →
      (inTable log = acked log ++ if a.reply.landed then a.mutations else []) → FailedAt error
  | conversion {n : Nat} : convert ((rows.drop (acked log).length).take n) = .error error →
      inTable log = acked log → FailedAt error

/-- The ingest has failed with `e`. -/
structure Broken (e error : Error) : Prop where
  reported : e = behind error (acked log).length
  converted : convert (rows.take (acked log).length) = .ok (acked log)
  failed : FailedAt convert rows log error
  sound : Sound log rows.length

variable {convert rows log}

theorem FailedAt.inTable_eq {error : Error} (h : FailedAt convert rows log error)
    (hknown : outcomeUnknown error = false) : inTable log = acked log := by
  cases h with
  | @commit a _ he _ htable =>
    rw [htable, a.reply.not_landed error he hknown]
    simp
  | conversion _ htable => exact htable

end Ends

theorem Sound.mono {log : List (Attempt μ)} {n m : Nat} (h : Sound log n) (hle : n ≤ m) :
    Sound log m :=
  ⟨h.mutations_ne, h.splits, by have := h.length_le; omega⟩

theorem Sound.append {log : List (Attempt μ)} {ms : List μ} {res : Option Error} {n : Nat}
    (h : Sound log n) (hlast : ∀ a ∈ log.getLast?, a.reply.error = none) (hc : Commits ms l res)
    (hpos : 0 < ms.length) : Sound (log ++ l) (n + ms.length) := by
  refine ⟨?_, ?_, ?_⟩
  · intro a ha
    rcases List.mem_append.mp ha with ha | ha
    · exact h.mutations_ne a ha
    · exact hc.mutations_ne (List.ne_nil_of_length_pos hpos) a ha
  · refine List.isChain_append.mpr ⟨h.splits, hc.splits, ?_⟩
    intro a ha b hb e he
    rw [hlast a ha] at he
    cases he
  · have := h.length_le
    have := hc.length_lt hpos
    rw [List.length_append]
    omega

variable {server : Server μ} {client : Env (List (Attempt μ)) δ μ} {job : Job δ}
  {target : List Char} {log : List (Attempt μ)} {a b : Nat}

theorem rangeRows_eq (bound : List (Batch δ)) (a b : Nat) :
    rangeRows bound a b = ((flatRows bound).drop a).take (b - a) := by
  rw [rangeRows, List.drop_take]

theorem Settled.length_acked
    (h : Settled (convertRows client.insertMutation target) (flatRows job.bound) log a)
    (ha : a ≤ (flatRows job.bound).length) : (acked log).length = a := by
  rw [length_of_convertRows h.converted, List.length_take, Nat.min_eq_left ha]

/-- A committed range joins the rows in front of it. -/
theorem Settled.append {ms : List μ} (hab : a ≤ b)
    (h : Settled (convertRows client.insertMutation target) (flatRows job.bound) log a)
    (hms : convertRows client.insertMutation target
      (((flatRows job.bound).drop a).take (b - a)) = .ok ms) (hlen : ms.length = b - a)
    (hc : Commits ms l none) (hpos : 0 < ms.length) :
    Settled (convertRows client.insertMutation target) (flatRows job.bound) (log ++ l) b := by
  obtain ⟨hacked, htable⟩ := hc.complete rfl
  refine ⟨?_, ?_, ?_, ?_⟩
  · rw [acked_append, hacked, ← Nat.add_sub_cancel' hab, List.take_add]
    exact convertRows_append_ok h.converted hms
  · rw [inTable_append, acked_append, h.table, hacked, htable]
  · have hsound := h.sound.append h.last hc hpos
    rwa [hlen, Nat.add_sub_cancel' hab] at hsound
  · intro x hx
    have hne : l ≠ [] := by
      cases hc <;> simp
    rw [List.getLast?_append_of_ne_nil _ hne] at hx
    exact hc.last rfl x hx

/-- A range that fails leaves a part of itself behind the rows in front of it. -/
theorem Settled.broken {ms : List μ} {error : Error} (hab : a ≤ b)
    (hb : b ≤ (flatRows job.bound).length)
    (h : Settled (convertRows client.insertMutation target) (flatRows job.bound) log a)
    (hms : convertRows client.insertMutation target
      (((flatRows job.bound).drop a).take (b - a)) = .ok ms) (hlen : ms.length = b - a)
    (hc : Commits ms l (some error)) (hpos : 0 < ms.length) :
    Broken (convertRows client.insertMutation target) (flatRows job.bound) (log ++ l)
      (noteRowsAlreadyCommitted error (a + (acked l).length)) error := by
  obtain ⟨x, hlast, hfailed, hpre, htable⟩ := hc.partly rfl
  have hcount : (acked (log ++ l)).length = a + (acked l).length := by
    rw [acked_append, List.length_append, h.length_acked (by omega)]
  have hroom := hpre.length_le
  rw [List.length_append, hlen] at hroom
  -- The acknowledged rows of the range are its first ones, and the last attempt is for the next.
  obtain ⟨rest, hrest⟩ := hpre
  have hbefore := convertRows_take (acked l).length hms
  have hrange := convertRows_take x.mutations.length (convertRows_drop (acked l).length hms)
  rw [← hrest, List.append_assoc, List.take_left, List.take_take, Nat.min_eq_left (by omega)]
    at hbefore
  rw [← hrest, List.append_assoc, List.drop_left, List.take_left, List.drop_take, List.take_take,
    Nat.min_eq_left (by omega), List.drop_drop] at hrange
  refine ⟨?_, ?_, .commit ?_ hfailed ?_ ?_, (h.sound.append h.last hc hpos).mono (by omega)⟩
  · rw [noteRowsAlreadyCommitted_eq, hcount]
  · rw [hcount, List.take_add, acked_append]
    exact convertRows_append_ok h.converted hbefore
  · rw [List.getLast?_append, hlast]
    rfl
  · rw [hcount]
    exact hrange
  · rw [inTable_append, acked_append, h.table, htable, List.append_assoc]

/-- One range, behind `a` committed rows. -/
theorem commitIngestRange_spec (server : Server μ) (hbw : job.ingestBatchWrite = false) (hab : a ≤ b)
    (hb : b ≤ rowCount job.bound)
    (h : Settled (convertRows client.insertMutation target) (flatRows job.bound) log a) :
    (∃ log', (commitIngestRange (server.env client) job target a b a).exec log =
        (.ok (b - a), log') ∧
      Settled (convertRows client.insertMutation target) (flatRows job.bound) log' b) ∨
    ∃ e log', (commitIngestRange (server.env client) job target a b a).exec log =
        (.error e, log') ∧ ∃ error,
      Broken (convertRows client.insertMutation target) (flatRows job.bound) log' e error := by
  have hrows : (flatRows job.bound).length = rowCount job.bound := length_flatRows _
  rcases Nat.eq_or_lt_of_le hab with rfl | hlt
  · refine .inl ⟨log, ?_, h⟩
    simp [commitIngestRange]
  · have hrange : commitIngestRange (server.env client) job target a b a =
        writeMutationRange (server.env client) job.bound target a b a := by
      unfold commitIngestRange
      rw [if_neg (by omega), hbw]
      rfl
    rw [hrange]
    cases hms : convertRows client.insertMutation target (rangeRows job.bound a b) with
    | error error =>
      have hcount := h.length_acked (by omega)
      have hbuild := exec_buildNoted (server.env client) job.bound target a b a log
      rw [show (server.env client).insertMutation = client.insertMutation from rfl, hms] at hbuild
      rw [rangeRows_eq] at hms
      refine .inr ⟨noteRowsAlreadyCommitted error a, log, ?_, error, ?_, ?_,
        .conversion (n := b - a) ?_ h.table, h.sound.mono (by omega)⟩
      · rw [writeMutationRange]
        exact exec_bind_error hbuild _
      · rw [noteRowsAlreadyCommitted_eq, hcount]
      · rw [hcount]
        exact h.converted
      · rw [hcount]
        exact hms
    | ok ms =>
      obtain ⟨l, res, hc, hexec⟩ := writeMutationRange_spec server a log hlt hb hms
      have hlen : ms.length = b - a := by
        rw [length_of_convertRows hms, length_rangeRows hb]
      rw [hexec]
      rw [rangeRows_eq] at hms
      cases res with
      | none =>
        exact .inl ⟨log ++ l, by simp [rangeResult, hlen], h.append hab hms hlen hc (by omega)⟩
      | some error =>
        exact .inr ⟨_, log ++ l, rfl, error, h.broken hab (by omega) hms hlen hc (by omega)⟩

/-- All ranges, behind `a` committed rows. -/
theorem commitRanges_spec (server : Server μ) {ranges : List (Nat × Nat)}
    (hbw : job.ingestBatchWrite = false) (ht : Tiles a b ranges) (hb : b ≤ rowCount job.bound)
    (h : Settled (convertRows client.insertMutation target) (flatRows job.bound) log a) :
    (∃ log', (commitRanges (commitIngestRange (server.env client) job target) ranges a).exec log =
        (.ok b, log') ∧
      Settled (convertRows client.insertMutation target) (flatRows job.bound) log' b) ∨
    ∃ e log', (commitRanges (commitIngestRange (server.env client) job target) ranges a).exec log =
        (.error e, log') ∧ ∃ error,
      Broken (convertRows client.insertMutation target) (flatRows job.bound) log' e error := by
  induction ht generalizing log with
  | nil => exact .inl ⟨log, rfl, h⟩
  | @cons a m c ranges ham hrest ih =>
    have hmc : m ≤ c := hrest.le
    rw [commitRanges]
    rcases commitIngestRange_spec server hbw ham (by omega) h with
      ⟨log', hexec, h'⟩ | ⟨e, log', hexec, hbroken⟩
    · rw [exec_bind_ok hexec, Nat.add_sub_cancel' ham]
      exact ih hb h'
    · rw [exec_bind_error hexec]
      exact .inr ⟨e, log', rfl, hbroken⟩

end Run

/-- A server that takes one row at a time, and whose second commit of a row is lost on the way back. -/
def oneRowServer : Server Nat where
  commit log mutations :=
    if mutations.length > 1 then
      ⟨some (err "too many mutations".toList .invalidArguments), false, by simp, by simp⟩
    else if acked log = [] then ⟨none, true, by simp, by simp⟩
    else ⟨some (err "late".toList .timeout), true, by simp, by simp [outcomeUnknown, err]⟩
  tableExists _ := .ok true

def rowNumbers : Env (List (Attempt Nat)) Unit Nat where
  insertMutation _ _ row := .ok row
  write _ := pure ()
  executeStreaming _ := pure (.opened [] .finished)
  codeOf _ := .unknown
  tableExists := pure true
  debug := id

def twoRows : Job Unit := ⟨"t".toList, none, some .append, false, [⟨2, 1, 16, ()⟩]⟩

def bisected : Except Error Nat × List (Attempt Nat) :=
  (ingestAutocommit (oneRowServer.env rowNumbers) twoRows).exec []

end Ingest
end SpannerAdbc

import CapsuleAnchor.Program
import CapsuleAnchor.Statement
import CapsuleAnchor.Runs

/-!
# The failures of the publisher (`public_log/scheduler.py`)

`publish_if_new` with its counter of consecutive failures.  What it calls may return anything or raise, and may remember
what it was called with: `exec` is any function of a state.  Only a part of the method is guarded: the row of a receipt is
built and put after the `try`, and the record of a failure names the backend outside of its own.

`publisher_isolated_iff`: in a run the method returns and the counter is right exactly while those steps do not raise.
-/

namespace CapsuleAnchor

/-- How the publisher uses what a backend returns: a value of any type `V`, with items of any type `U`. -/
structure Duck (V U : Type) where
  /-- `receipt.get(key)`. -/
  get : V → String → Except String U
  /-- `bool(x)`. -/
  truthy : U → Except String Bool
  /-- `str(x)`. -/
  str : U → Except String String
  /-- `json.dumps(receipt, default=str)`. -/
  dumps : V → Except String String

/-- The dict that is put. -/
structure ReceiptRow (U : Type) where
  backend : String
  sthTreeSize : Nat
  sthRootHash : Digest
  sthTimestamp : String
  uuid : String
  logIndex : U
  integratedTime : U
  signedEntryTimestamp : U
  rawResponse : String
  submittedAt : String

section

variable {V U : Type} (D : Duck V U)

/-- `str(receipt.get("uuid") or receipt.get("location") or "")`. -/
def Duck.uuid (receipt : V) : Except String String := do
  let uuid ← D.get receipt "uuid"
  if ← D.truthy uuid then D.str uuid
  else
    let location ← D.get receipt "location"
    if ← D.truthy location then D.str location else return ""

/-- The row of what the backend returned. -/
def Duck.row (backend : String) (sth : SignedTreeHead) (receipt : V) (now : Datetime) : Except String (ReceiptRow U) := do
  let uuid ← D.uuid receipt
  let logIndex ← D.get receipt "log_index"
  let integratedTime ← D.get receipt "integrated_time"
  let signedEntryTimestamp ← D.get receipt "signed_entry_timestamp"
  let rawResponse ← D.dumps receipt
  return { backend, sthTreeSize := sth.treeSize, sthRootHash := sth.rootHash, sthTimestamp := sth.timestamp.isoformat
           uuid, logIndex, integratedTime, signedEntryTimestamp, rawResponse, submittedAt := now.isoformat }

end

/-- What the publisher calls: the service, the backend and the store. -/
inductive PublisherCall (U : Type)
  | size
  | getSth
  | name
  | getPublicLogReceipt (backend : String) (treeSize : Nat) (rootHash : Digest)
  | submit (payload : Bytes) (signature : Signature)
  | putPublicLogReceipt (row : ReceiptRow U)
  | putPublicLogFailure (backend occurredAt error : String)

/-- What a call returns, or the text of its exception. -/
@[reducible] def PublisherCall.Ans (V : Type) {U : Type} : PublisherCall U → Type
  | .size => Except String Nat
  | .getSth => Except String SignedTreeHead
  | .name => Except String String
  | .getPublicLogReceipt _ _ _ => Except String (Option (ReceiptRow U))
  | .submit _ _ => Except String V
  | .putPublicLogReceipt _ => Except String Bool
  | .putPublicLogFailure _ _ _ => Except String Unit

abbrev PublisherM (V U ε α : Type) : Type := Prog (PublisherCall U) (PublisherCall.Ans V) ε α

def PublisherCall.perform {V U ε : Type} (c : PublisherCall U) : PublisherM V U ε (c.Ans V) := Prog.perform c

structure PublicLogPublisher where
  degradedAfter : Nat := 12
  consecutiveFailures : Nat := 0

/-- `degraded`. -/
def PublicLogPublisher.degraded (publisher : PublicLogPublisher) : Bool :=
  decide (publisher.degradedAfter ≤ publisher.consecutiveFailures)

variable {V U : Type}

/-- A call that raises where its answer is an exception. -/
def ask {α : Type} (p : PublisherM V U String (Except String α)) : PublisherM V U String α := p >>= Prog.ofExcept

/-- The `try` block of `publish_if_new`: what was submitted for which head, if anything was to be. -/
def submitIfNew : PublisherM V U String (Option (String × SignedTreeHead × V)) := do
  let size ← ask (PublisherCall.perform .size)
  if size = 0 then return none
  let sth ← ask (PublisherCall.perform .getSth)
  let backend ← ask (PublisherCall.perform .name)
  let stored ← ask (PublisherCall.perform (.getPublicLogReceipt backend sth.treeSize sth.rootHash))
  if stored.isSome then return none
  let receipt ← ask (PublisherCall.perform (.submit (sthPayload sth.treeSize sth.rootHash sth.timestamp) sth.signature))
  return some (backend, sth, receipt)

variable (D : Duck V U)

/-- The put after the `try` block. -/
def fileReceipt (now : Datetime) (submitted : String × SignedTreeHead × V) : PublisherM V U String Unit := do
  let row ← Prog.ofExcept (D.row submitted.1 submitted.2.1 submitted.2.2 now)
  let _ ← ask (PublisherCall.perform (.putPublicLogReceipt row))
  return ()

/-- `_record_failure`, after the counter. -/
def recordFailure (now : Datetime) (exc : String) : PublisherM V U String Unit := do
  -- an argument of `logger.warning`
  let _ ← ask (PublisherCall.perform .name)
  let _ ← Prog.attempt (ε := String) do
    let backend ← ask (PublisherCall.perform .name)
    ask (PublisherCall.perform (.putPublicLogFailure backend now.isoformat exc))
  return ()

/-- `publish_if_new`: what it returns or raises, and the publisher afterwards. -/
def PublicLogPublisher.publishIfNew (now : Datetime) (publisher : PublicLogPublisher) :
    PublisherM V U Empty (Except String Bool × PublicLogPublisher) := do
  match ← submitIfNew.attempt with
  | .error exc =>
    let recorded ← (recordFailure now exc).attempt
    return (recorded.map fun _ => false, { publisher with consecutiveFailures := publisher.consecutiveFailures + 1 })
  | .ok none => return (.ok false, publisher)
  | .ok (some submitted) =>
    match ← (fileReceipt D now submitted).attempt with
    | .error exc => return (.error exc, publisher)
    | .ok () => return (.ok true, { publisher with consecutiveFailures := 0 })

/-! ### One call -/

section Calls

variable {σ : Type} (exec : (c : PublisherCall U) → σ → c.Ans V × σ)

/-- How an attempt ends. -/
inductive AttemptKind
  | published
  | skipped
  | failed
deriving DecidableEq

/-- An attempt fails when it raises before it has published, wherever it does. -/
def attemptKind (now : Datetime) (s : σ) : AttemptKind :=
  match submitIfNew.run exec s with
  | (.error _, _) => .failed
  | (.ok none, _) => .skipped
  | (.ok (some submitted), s') =>
    match ((fileReceipt D now submitted).run exec s').1 with
    | .error _ => .failed
    | .ok () => .published

/-- What is not guarded does not raise: the backend has a name for the record of a failure; what it returned has a row,
and the store takes that. -/
def Tolerated (now : Datetime) (s : σ) : Prop :=
  match submitIfNew.run exec s with
  | (.error _, s') => ∃ name, (exec .name s').1 = .ok name
  | (.ok none, _) => True
  | (.ok (some submitted), s') => ∃ row, D.row submitted.1 submitted.2.1 submitted.2.2 now = .ok row ∧
    ∃ fresh, (exec (.putPublicLogReceipt row) s').1 = .ok fresh

/-- A call of `publish_if_new`. -/
def publisherStep (s : σ × PublicLogPublisher) (now : Datetime) : Except String Bool × σ × PublicLogPublisher :=
  match (PublicLogPublisher.publishIfNew D now s.2).run exec s.1 with
  | (.ok (reply, publisher), s') => (reply, s', publisher)
  | (.error e, _) => e.elim

private theorem run_ask {ε : Type} (r : Except String ε) (s s' : σ) (p : PublisherM V U String (Except String ε))
    (h : p.run exec s = (.ok r, s')) : (ask p).run exec s = (r, s') := by
  rw [ask, Prog.run_bind_ok _ h, Prog.run_ofExcept]

/-- The record of a failure raises only where it names the backend for the log. -/
private theorem recordFailure_ok (now : Datetime) (exc : String) (s : σ) :
    (∃ u, ((recordFailure (V := V) (U := U) now exc).run exec s).1 = .ok u) ↔ ∃ name, (exec .name s).1 = .ok name := by
  have hname := run_ask exec _ s _ (PublisherCall.perform .name) (Prog.run_perform exec .name s)
  cases hanswer : (exec .name s).1 with
  | error e =>
    rw [hanswer] at hname
    rw [recordFailure, Prog.run_bind_error _ hname]
    simp
  | ok name =>
    rw [hanswer] at hname
    rw [recordFailure, Prog.run_bind_ok _ hname, Prog.run_bind_ok _ (Prog.run_attempt _ _ _)]
    exact ⟨fun _ => ⟨name, rfl⟩, fun _ => ⟨(), rfl⟩⟩

private theorem fileReceipt_ok (now : Datetime) (submitted : String × SignedTreeHead × V) (s : σ) :
    ((fileReceipt D now submitted).run exec s).1 = .ok () ↔
      ∃ row, D.row submitted.1 submitted.2.1 submitted.2.2 now = .ok row ∧
        ∃ fresh, (exec (.putPublicLogReceipt row) s).1 = .ok fresh := by
  cases hrow : D.row submitted.1 submitted.2.1 submitted.2.2 now with
  | error e => simp [fileReceipt, hrow, Prog.ofExcept]
  | ok row =>
    have hput := run_ask exec _ s _ (PublisherCall.perform (.putPublicLogReceipt row))
      (Prog.run_perform exec (.putPublicLogReceipt row) s)
    have hbuilt : (Prog.ofExcept (.ok row) : PublisherM V U String (ReceiptRow U)).run exec s = (.ok row, s) := rfl
    rw [fileReceipt, hrow, Prog.run_bind_ok _ hbuilt]
    cases hanswer : (exec (.putPublicLogReceipt row) s).1 with
    | error e =>
      rw [hanswer] at hput
      rw [Prog.run_bind_error _ hput]
      simp [hanswer]
    | ok fresh =>
      rw [hanswer] at hput
      rw [Prog.run_bind_ok _ hput]
      simp [hanswer]

/-- The counter after an attempt. -/
def AttemptKind.count (failures : Nat) : AttemptKind → Nat
  | published => 0
  | skipped => failures
  | failed => failures + 1

/-- A call returns exactly when what is not guarded does not raise, and then counts. -/
theorem publisherStep_spec (s : σ × PublicLogPublisher) (now : Datetime) :
    ((∃ fresh, (publisherStep D exec s now).1 = .ok fresh) ↔ Tolerated D exec now s.1) ∧
      (Tolerated D exec now s.1 → (publisherStep D exec s now).2.2 =
        { s.2 with consecutiveFailures := (attemptKind D exec now s.1).count s.2.consecutiveFailures }) := by
  obtain ⟨s, publisher⟩ := s
  have hsubmit : ((submitIfNew (V := V) (U := U)).attempt : PublisherM V U Empty _).run exec s = _ :=
    Prog.run_attempt exec submitIfNew s
  cases hrun : (submitIfNew (V := V) (U := U)).run exec s with
  | mk r s' =>
    rw [hrun] at hsubmit
    cases r with
    | error exc =>
      have hrecord := recordFailure_ok (V := V) (U := U) exec now exc s'
      have hstep : publisherStep D exec (s, publisher) now =
          (((recordFailure (V := V) (U := U) now exc).run exec s').1.map fun _ => false,
            ((recordFailure (V := V) (U := U) now exc).run exec s').2,
            { publisher with consecutiveFailures := publisher.consecutiveFailures + 1 }) := by
        rw [publisherStep, PublicLogPublisher.publishIfNew, Prog.run_bind_ok _ hsubmit]
        simp only
        rw [Prog.run_bind_ok _ (Prog.run_attempt _ _ _)]
        rfl
      rw [hstep, Tolerated, attemptKind, hrun]
      refine ⟨?_, fun _ => rfl⟩
      simp only
      rw [← hrecord]
      cases ((recordFailure (V := V) (U := U) now exc).run exec s').1 with
      | error e => simp [Except.map]
      | ok u => simp [Except.map]
    | ok submitted =>
      cases submitted with
      | none =>
        have hstep : publisherStep D exec (s, publisher) now = (.ok false, s', publisher) := by
          rw [publisherStep, PublicLogPublisher.publishIfNew, Prog.run_bind_ok _ hsubmit]
          rfl
        rw [hstep, Tolerated, attemptKind, hrun]
        exact ⟨⟨fun _ => trivial, fun _ => ⟨false, rfl⟩⟩, fun _ => rfl⟩
      | some submitted =>
        have hfile := fileReceipt_ok D exec now submitted s'
        have hattempt : ((fileReceipt D now submitted).attempt : PublisherM V U Empty _).run exec s' = _ :=
          Prog.run_attempt exec (fileReceipt D now submitted) s'
        rw [Tolerated, attemptKind, hrun]
        simp only
        rw [← hfile]
        cases hfiled : ((fileReceipt D now submitted).run exec s').1 with
        | error e =>
          rw [hfiled] at hattempt
          have hstep : (publisherStep D exec (s, publisher) now).1 = .error e := by
            rw [publisherStep, PublicLogPublisher.publishIfNew, Prog.run_bind_ok _ hsubmit]
            simp only
            rw [Prog.run_bind_ok _ hattempt]
            rfl
          simp [hstep]
        | ok u =>
          rw [hfiled] at hattempt
          have hstep : publisherStep D exec (s, publisher) now =
              (.ok true, ((fileReceipt D now submitted).run exec s').2, { publisher with consecutiveFailures := 0 }) := by
            rw [publisherStep, PublicLogPublisher.publishIfNew, Prog.run_bind_ok _ hsubmit]
            simp only
            rw [Prog.run_bind_ok _ hattempt]
            rfl
          rw [hstep]
          exact ⟨⟨fun _ => rfl, fun _ => ⟨true, rfl⟩⟩, fun _ => rfl⟩

/-! ### Runs -/

/-- How the attempts of a run ended. -/
def attemptKinds (es : List (Run.Event (σ × PublicLogPublisher) Datetime (Except String Bool))) : List AttemptKind :=
  es.map fun e => attemptKind D exec e.request e.before.1

/-- The failed attempts since the last one that published. -/
def failuresSince (kinds : List AttemptKind) : Nat :=
  ((kinds.reverse.takeWhile fun k => decide (k ≠ .published)).filter fun k => decide (k = .failed)).length

theorem failuresSince_append (kinds : List AttemptKind) (kind : AttemptKind) :
    failuresSince (kinds ++ [kind]) = kind.count (failuresSince kinds) := by
  cases kind <;> simp [failuresSince, AttemptKind.count]

/-- The calls of the thread; an exception ends it. -/
def publisherThread (s : σ × PublicLogPublisher) : List Datetime → Option (σ × PublicLogPublisher)
  | [] => some s
  | now :: ticks =>
    match publisherStep D exec s now with
    | (.ok _, s') => publisherThread s' ticks
    | (.error _, _) => none

/-- The thread lives on while nothing raises that is not guarded. -/
theorem publisherThread_alive_iff (s : σ × PublicLogPublisher) (ticks : List Datetime) :
    (publisherThread D exec s ticks).isSome ↔
      ∀ e ∈ Run.trace (publisherStep D exec) s ticks, Tolerated D exec e.request e.before.1 := by
  induction ticks generalizing s with
  | nil => simp [publisherThread, Run.trace]
  | cons now ticks ih =>
    have hspec := (publisherStep_spec D exec s now).1
    rw [publisherThread, Run.trace, List.forall_mem_cons, ← hspec]
    cases hstep : publisherStep D exec s now with
    | mk reply s' =>
      cases reply with
      | error e => simp
      | ok fresh => simp [ih]

/-- In a run from a fresh publisher every call returns, and the counter is that of the failed attempts since the last one
that published. -/
def Isolated (s : σ) (degradedAfter : Nat) (nows : List Datetime) : Prop :=
  let start : σ × PublicLogPublisher := (s, ⟨degradedAfter, 0⟩)
  let events := Run.trace (publisherStep D exec) start nows
  let publisher := (Run.after (publisherStep D exec) start nows).2
  (∀ e ∈ events, ∃ fresh, e.reply = .ok fresh) ∧
    publisher.consecutiveFailures = failuresSince (attemptKinds D exec events) ∧
    (publisher.degraded = true ↔ degradedAfter ≤ failuresSince (attemptKinds D exec events))

/-- The publisher is isolated from failures in exactly those runs in which nothing raises that is not guarded. -/
theorem publisher_isolated_iff (s : σ) (degradedAfter : Nat) (nows : List Datetime) :
    Isolated D exec s degradedAfter nows ↔
      ∀ e ∈ Run.trace (publisherStep D exec) (s, ⟨degradedAfter, 0⟩) nows, Tolerated D exec e.request e.before.1 := by
  have hreturns : ∀ e ∈ Run.trace (publisherStep D exec) (s, ⟨degradedAfter, 0⟩) nows,
      (∃ fresh, e.reply = .ok fresh) ↔ Tolerated D exec e.request e.before.1 := by
    intro e he
    obtain ⟨_, _, -, -, hreply, -⟩ := Run.trace_split (publisherStep D exec) he
    rw [hreply]
    exact (publisherStep_spec D exec e.before e.request).1
  constructor
  · rintro ⟨hall, -⟩ e he
    exact (hreturns e he).1 (hall e he)
  · intro htolerated
    have hcounter : (∀ e ∈ Run.trace (publisherStep D exec) (s, ⟨degradedAfter, 0⟩) nows,
        Tolerated D exec e.request e.before.1) →
        (Run.after (publisherStep D exec) (s, ⟨degradedAfter, 0⟩) nows).2 = ⟨degradedAfter,
          failuresSince (attemptKinds D exec (Run.trace (publisherStep D exec) (s, ⟨degradedAfter, 0⟩) nows))⟩ := by
      refine Run.history (publisherStep D exec) (P := fun es s => (∀ e ∈ es, Tolerated D exec e.request e.before.1) →
        s.2 = ⟨degradedAfter, failuresSince (attemptKinds D exec es)⟩) ?_ ?_ nows
      · exact fun _ => rfl
      · intro es s now ih hall
        have hbefore := ih fun e he => hall e (List.mem_append_left _ he)
        have hlast : Tolerated D exec now s.1 := hall _ (List.mem_append_right _ List.mem_cons_self)
        have hafter := (publisherStep_spec D exec s now).2 hlast
        have hkinds : attemptKinds D exec (es ++ [⟨s, now, (publisherStep D exec s now).1, (publisherStep D exec s now).2⟩]) =
            attemptKinds D exec es ++ [attemptKind D exec now s.1] := List.map_append
        rw [hafter, hbefore, hkinds, failuresSince_append]
    have hend := hcounter htolerated
    refine ⟨fun e he => (hreturns e he).2 (htolerated e he), ?_, ?_⟩
    · rw [hend]
    · rw [hend, PublicLogPublisher.degraded, decide_eq_true_iff]

end Calls

/-- A backend that answers, and a store whose table of receipts cannot be written. -/
private def lockedTable : (c : PublisherCall Unit) → Unit → c.Ans Unit × Unit
  | .size, s => (.ok 1, s)
  | .getSth, s => (.ok ⟨1, filledDigest 0, ⟨0, 0⟩, ⟨[], "", "ed25519", ⟨0, 0⟩⟩⟩, s)
  | .name, s => (.ok "rekor-public", s)
  | .getPublicLogReceipt _ _ _, s => (.ok none, s)
  | .submit _ _, s => (.ok (), s)
  | .putPublicLogReceipt _, s => (.error "database is locked", s)
  | .putPublicLogFailure _ _ _, s => (.ok (), s)

/-- What the put raises escapes. -/
theorem publisher_not_isolated : ¬ ∀ (V U σ : Type) (D : Duck V U) (exec : (c : PublisherCall U) → σ → c.Ans V × σ) (s : σ)
    (degradedAfter : Nat) (nows : List Datetime), Isolated D exec s degradedAfter nows := by
  intro h
  obtain ⟨hreturns, -⟩ := h Unit Unit Unit ⟨fun _ _ => .ok (), fun _ => .ok true, fun _ => .ok "", fun _ => .ok "null"⟩
    lockedTable () 12 [⟨0, 0⟩]
  obtain ⟨fresh, hfresh⟩ := hreturns _ List.mem_cons_self
  cases hfresh

end CapsuleAnchor

import CapsuleAnchor.Reference
import CapsuleAnchor.Runs
import CapsuleAnchor.Tables

/-!
# The countersigned roots

A call of `anchor` that returns has put a countersigned root under `(tenant_id, root_hash)`, and nothing else touches
that table.  The in-memory store and SQLite keep the last root put there; the upsert of Postgres replaces everything but
the range, so it keeps the last root with the range of the first (`Backend.storedRoot`, `stored_after`).

The countersignature covers the range.  So `get_countersigned_root` returns the last root, which verifies, except on
Postgres after the root was anchored again with another range (`stored_roots_verify`, `stored_root_rejected`).
-/

namespace CapsuleAnchor

variable (E : Env) (cfg : Config)

/-- `verify_countersignature`. -/
def verifyCountersignature (countersigned : CountersignedRoot) : Bool :=
  E.verify (countersignPayload countersigned.tenantId countersigned.rootHash countersigned.seqRange
    countersigned.attestedAt) countersigned.countersignature

/-- The root that a call of `anchor` countersigns. -/
def countersignedRoot (now : Nat → Datetime) (tenantId rootHash : String) (seqRange : Int × Int) : CountersignedRoot :=
  { tenantId, rootHash, seqRange, attestedAt := now 0
    countersignature := attest E (countersignPayload tenantId rootHash seqRange (now 0)) (now 1) }

abbrev BackendEvent (b : Backend) : Type :=
  Run.Event b.Store ((Nat → Datetime) × Request) (Except (Option ServiceError) Reply)

/-- The root of a call of `anchor` that returned. -/
def countersignedBy {b : Backend} (e : BackendEvent b) : Option CountersignedRoot :=
  match e.request.2, e.reply with
  | .anchor tenantId rootHash seqRange _, .ok _ => some (countersignedRoot E e.request.1 tenantId rootHash seqRange)
  | _, _ => none

/-- The roots countersigned for a tenant and a root hash, in the order of the calls. -/
def rootsOf {b : Backend} (es : List (BackendEvent b)) (tenantId rootHash : String) : List CountersignedRoot :=
  (es.filterMap (countersignedBy E)).filter fun root => (root.tenantId, root.rootHash) = (tenantId, rootHash)

/-- The row that is left of the roots put under one key. -/
def Backend.storedRoot : Backend → List CountersignedRoot → Option CountersignedRoot
  | .memory, roots => roots.getLast?
  | .sqlite, roots => roots.getLast?
  | .postgres, roots => roots.getLast?.map fun last =>
    { last with seqRange := (roots.head?.map (·.seqRange)).getD last.seqRange }

/-- The law of Ed25519: what the authority signs verifies. -/
def AttestationsVerify : Prop := ∀ payload createdAt, E.verify payload (attest E payload createdAt) = true

/-! ### One call -/

section Call

variable (b : Backend) (s : b.Store)

/-- Nothing but `put_root` touches the roots. -/
private theorem getRoot_frame {c : Call} (hc : ∀ root, c ≠ .putRoot root) (tenantId rootHash : String) :
    b.getRoot tenantId rootHash (b.exec E c s).2 = b.getRoot tenantId rootHash s := by
  have hsql : ∀ s : SqlStore, (SqlStore.exec E c s).2.countersignedRoots = s.countersignedRoots := by
    intro s
    cases c with
    | putRoot root => exact absurd rfl (hc root)
    | appendEntry entry =>
      simp only [SqlStore.exec]
      split <;> rfl
    | putCheckpointRecord logId mmrSize record =>
      simp only [SqlStore.exec, SqlStore.putCheckpointRecord]
      split
      · rfl
      · split <;> rfl
    | _ => rfl
  cases b with
  | memory =>
    change (MemoryStore.exec c s).2.roots.lookup _ = s.roots.lookup _
    cases c with
    | putRoot root => exact absurd rfl (hc root)
    | pruneStatementsOlderThan cutoff =>
      simp only [MemoryStore.exec, MemoryStore.pruneStatementsOlderThan]
      split <;> rfl
    | putCheckpointRecord logId mmrSize record =>
      simp only [MemoryStore.exec, MemoryStore.putCheckpointRecord]
      split
      · rfl
      · split <;> rfl
    | putSth sth =>
      simp only [MemoryStore.exec]
      rw [putSth_eq]
    | _ => rfl
  | sqlite =>
    change (SqliteStore.exec E c s).2.countersignedRoots.lookup _ = s.countersignedRoots.lookup _
    cases c with
    | putRoot root => exact absurd rfl (hc root)
    | pruneStatementsOlderThan cutoff => rfl
    | _ => exact congrArg (·.lookup (tenantId, rootHash)) (hsql s)
  | postgres =>
    change (PostgresStore.exec E c s).2.countersignedRoots.lookup _ = s.countersignedRoots.lookup _
    rw [PostgresStore.exec_eq]
    exact congrArg (·.lookup (tenantId, rootHash)) (hsql s)

/-- A put leaves the row that the backend keeps of the roots so far and the new one. -/
private theorem getRoot_putRoot {roots : List CountersignedRoot} (root : CountersignedRoot)
    (hstored : b.getRoot root.tenantId root.rootHash s = b.storedRoot roots) :
    b.getRoot root.tenantId root.rootHash (b.exec E (.putRoot root) s).2 = b.storedRoot (roots ++ [root]) := by
  cases b with
  | memory =>
    simp only [Backend.getRoot, Backend.exec, MemoryStore.exec, Backend.storedRoot, AList.lookup_insert,
      List.getLast?_append, List.getLast?_singleton, Option.some_or]
  | sqlite =>
    simp only [Backend.getRoot, Backend.exec, SqliteStore.exec, SqliteStore.putRoot, Backend.storedRoot,
      AList.lookup_insert, List.getLast?_append, List.getLast?_singleton, Option.some_or]
  | postgres =>
    have hrow : s.countersignedRoots.lookup (root.tenantId, root.rootHash) = Backend.storedRoot .postgres roots := hstored
    simp only [Backend.getRoot, Backend.exec, PostgresStore.exec, SqlStore.exec, SqlStore.putRoot, AList.lookup_insert,
      Backend.storedRoot, List.getLast?_append, List.getLast?_singleton, Option.some_or, Option.map_some, hrow]
    cases roots with
    | nil => rfl
    | cons first rest =>
      obtain ⟨last, hlast⟩ : ∃ last, (first :: rest).getLast? = some last := ⟨_, List.getLast?_eq_some_getLast (by simp)⟩
      simp [hlast]

/-- A put touches no other row. -/
private theorem getRoot_putRoot_ne (root : CountersignedRoot) {tenantId rootHash : String}
    (hne : (root.tenantId, root.rootHash) ≠ (tenantId, rootHash)) :
    b.getRoot tenantId rootHash (b.exec E (.putRoot root) s).2 = b.getRoot tenantId rootHash s := by
  cases b with
  | memory => exact AList.lookup_insert_ne hne.symm
  | sqlite => exact AList.lookup_insert_ne hne.symm
  | postgres => exact AList.lookup_insert_ne hne.symm

end Call

/-! ### One request -/

section Step

variable {b : Backend} {s s' : b.Store}

/-- The index of an entry that was appended fits its column. -/
private theorem appended_fits {kind : String} {signedPayload : Bytes} {loggedAt signedAt : Datetime}
    {entry : TransparencyLogEntry}
    (h : (appendLog E kind signedPayload loggedAt signedAt).runRaising (b.Raises E) (b.exec E) s = (.ok entry, s'))
    (capsuleId : String) (s : b.Store) : ¬ b.Raises E (.putCapsuleId entry.logIndex capsuleId) s := by
  rw [appendLog] at h
  obtain ⟨n, s₁, -, h⟩ := Prog.runRaising_bind_returns h
  obtain ⟨prev, s₂, -, h⟩ := Prog.runRaising_bind_returns h
  obtain ⟨_, s₃, happend, h⟩ := Prog.runRaising_bind_returns h
  obtain ⟨x, s₄, hperform, -⟩ := Prog.runRaising_bind_returns happend
  have hfits := Prog.not_raises_of_perform hperform
  obtain rfl := Except.ok.inj (Prod.mk.inj h).1
  cases b with
  | memory => exact id
  | sqlite =>
    rintro (h | h)
    · exact hfits (.inl h)
    · exact h
  | postgres => exact hfits

/-- Binding the capsule after the append neither raises nor touches the roots. -/
private theorem bind_capsule {logIndex : Int} (hfits : ∀ id (s : b.Store), ¬ b.Raises E (.putCapsuleId logIndex id) s)
    (capsuleId : Option String) (s : b.Store) :
    ∃ x s', (optionally capsuleId fun id => store (.putCapsuleId logIndex id)).runRaising (b.Raises E) (b.exec E) s =
      (.ok x, s') ∧ ∀ tenantId rootHash, b.getRoot tenantId rootHash s' = b.getRoot tenantId rootHash s := by
  cases capsuleId with
  | none => exact ⟨none, s, rfl, fun _ _ => rfl⟩
  | some id =>
    have hrun : (store (.putCapsuleId logIndex id)).runRaising (b.Raises E) (b.exec E) s =
        (.ok (b.exec E (.putCapsuleId logIndex id) s).1, (b.exec E (.putCapsuleId logIndex id) s).2) :=
      Prog.runRaising_perform (hfits id s)
    refine ⟨some (), _, ?_, getRoot_frame E b s (c := .putCapsuleId logIndex id) (by intro root h; cases h)⟩
    rw [optionally, Prog.runRaising_map, hrun]
    rfl

/-- A call of `anchor` that returns has put its root; one that raises has not. -/
private theorem anchor_roots (s : b.Store) (now : Nat → Datetime) (tenantId rootHash : String) (seqRange : Int × Int)
    (capsuleId : Option String) :
    let r := (anchor E now tenantId rootHash seqRange capsuleId).runRaising (b.Raises E) (b.exec E) s
    let root := countersignedRoot E now tenantId rootHash seqRange
    (∃ e, r.1 = .error e ∧ ∀ t h, b.getRoot t h r.2 = b.getRoot t h s) ∨
    ∃ receipt s₁, r.1 = .ok receipt ∧ (∀ t h, b.getRoot t h s₁ = b.getRoot t h s) ∧
      ∀ t h, b.getRoot t h r.2 = b.getRoot t h (b.exec E (.putRoot root) s₁).2 := by
  intro r root
  have happend : ∀ t h, b.getRoot t h ((appendLog E logKindRoot (countersignPayload tenantId rootHash seqRange (now 0))
      (now 0) (now 2)).runRaising (b.Raises E) (b.exec E) s).2 = b.getRoot t h s := by
    intro t h
    refine Prog.Calls.frame (b.getRoot t h) ?_ (appendLog_calls E _ _ _ _) s
    intro c s hc
    exact getRoot_frame E b s (by rintro root rfl; cases hc) t h
  obtain ⟨receipt, hanchor⟩ : ∃ receipt : TransparencyLogEntry → AnchorReceipt,
      anchor E now tenantId rootHash seqRange capsuleId =
        appendLog E logKindRoot (countersignPayload tenantId rootHash seqRange (now 0)) (now 0) (now 2) >>= fun entry =>
          store (.putRoot root) >>= fun _ =>
            (optionally capsuleId fun id => store (.putCapsuleId entry.logIndex id)) >>= fun _ => pure (receipt entry) :=
    ⟨_, rfl⟩
  simp only [r, hanchor]
  cases hrun : (appendLog E logKindRoot (countersignPayload tenantId rootHash seqRange (now 0)) (now 0)
      (now 2)).runRaising (b.Raises E) (b.exec E) s with
  | mk x s₁ =>
    rw [hrun] at happend
    cases x with
    | error e =>
      rw [Prog.runRaising_bind_error hrun]
      exact .inl ⟨e, rfl, happend⟩
    | ok entry =>
      rw [Prog.runRaising_bind_ok hrun]
      by_cases hraises : b.Raises E (.putRoot root) s₁
      · left
        have hput : (store (.putRoot root)).runRaising (b.Raises E) (b.exec E) s₁ = (.error none, s₁) :=
          Prog.runRaising_perform_raised hraises
        rw [Prog.runRaising_bind_error hput]
        exact ⟨none, rfl, happend⟩
      · right
        have hput : (store (.putRoot root)).runRaising (b.Raises E) (b.exec E) s₁ =
            (.ok (b.exec E (.putRoot root) s₁).1, (b.exec E (.putRoot root) s₁).2) := Prog.runRaising_perform hraises
        obtain ⟨y, s₂, hbind, hroots⟩ := bind_capsule E (appended_fits E hrun) capsuleId (b.exec E (.putRoot root) s₁).2
        rw [Prog.runRaising_bind_ok hput, Prog.runRaising_bind_ok hbind]
        exact ⟨_, s₁, rfl, happend, hroots⟩

/-- The other requests put no root. -/
private theorem program_calls {request : Request}
    (hanchor : ∀ tenantId rootHash seqRange capsuleId, request ≠ .anchor tenantId rootHash seqRange capsuleId)
    (now : Nat → Datetime) : (request.program E cfg now).Calls (fun c => ∀ root, c ≠ .putRoot root) := by
  have hregisters : ∀ {α : Type} {p : ServiceM α}, p.Calls (fun c => c.registers = true) →
      p.Calls (fun c => ∀ root, c ≠ .putRoot root) := by
    intro α p hp
    refine hp.mono ?_
    rintro c hc root rfl
    cases hc
  cases request with
  | anchor tenantId rootHash seqRange capsuleId => exact absurd rfl (hanchor tenantId rootHash seqRange capsuleId)
  | register statementBytes => exact (hregisters (registerSignedStatementFull_calls E cfg _ _ _ _)).map _
  | witnessCheckpoint cp =>
    refine Prog.Calls.map (Prog.Calls.bind (hregisters (registerSignedStatementFull_calls E cfg _ _ _ _)) ?_) _
    intro result
    exact Prog.Calls.bind (Prog.Calls.perform (by intro root h; cases h)) (fun _ => trivial)
  | refreshSth => exact (hregisters (signAndPersistSth_calls E _ _)).map _
  | getSth => exact (hregisters (getSth_calls E now)).map _
  | prune seconds =>
    refine Prog.Calls.map ?_ _
    cases seconds with
    | none => trivial
    | some seconds => exact Prog.Calls.bind (Prog.Calls.perform (by intro root h; cases h)) (fun x => Prog.Calls.ofExcept x)

private theorem rootsOf_concat (es : List (BackendEvent b)) (e : BackendEvent b) (t h : String) :
    rootsOf E (es ++ [e]) t h = rootsOf E es t h ++
      ((countersignedBy E e).toList.filter fun root => (root.tenantId, root.rootHash) = (t, h)) := by
  rw [rootsOf, List.filterMap_append, List.filter_append, rootsOf]
  cases hby : countersignedBy E e <;> simp [hby]

/-- The rows are what the backend keeps of the roots put so far. -/
def RootsStored (es : List (BackendEvent b)) (s : b.Store) : Prop :=
  ∀ t h, b.getRoot t h s = b.storedRoot (rootsOf E es t h)

theorem rootsStored_empty : RootsStored E [] b.empty := by
  intro t h
  cases b <;> rfl

theorem rootsStored_step {es : List (BackendEvent b)} (hstored : RootsStored E es s) (r : (Nat → Datetime) × Request) :
    RootsStored E (es ++ [⟨s, r, (b.step E cfg s r).1, (b.step E cfg s r).2⟩]) (b.step E cfg s r).2 := by
  obtain ⟨now, request⟩ := r
  have hquiet : countersignedBy E (⟨s, (now, request), (b.step E cfg s (now, request)).1,
      (b.step E cfg s (now, request)).2⟩ : BackendEvent b) = none →
      (∀ t h, b.getRoot t h (b.step E cfg s (now, request)).2 = b.getRoot t h s) →
      RootsStored E (es ++ [⟨s, (now, request), (b.step E cfg s (now, request)).1,
        (b.step E cfg s (now, request)).2⟩]) (b.step E cfg s (now, request)).2 := by
    intro hby hsame t h
    rw [rootsOf_concat, hby, hsame, hstored t h]
    simp
  cases request with
  | anchor tenantId rootHash seqRange capsuleId =>
    have hrun : b.step E cfg s (now, .anchor tenantId rootHash seqRange capsuleId) =
        (((anchor E now tenantId rootHash seqRange capsuleId).runRaising (b.Raises E) (b.exec E) s).1.map .anchored,
          ((anchor E now tenantId rootHash seqRange capsuleId).runRaising (b.Raises E) (b.exec E) s).2) :=
      Prog.runRaising_map _ _ _ _ _
    rcases anchor_roots E s now tenantId rootHash seqRange capsuleId with ⟨e, herror, hsame⟩ | ⟨receipt, s₁, hok, hbefore, hput⟩
    · refine hquiet ?_ ?_
      · rw [hrun, herror]
        rfl
      · rw [hrun]
        exact hsame
    · have hby : countersignedBy E (⟨s, (now, .anchor tenantId rootHash seqRange capsuleId),
          (b.step E cfg s (now, .anchor tenantId rootHash seqRange capsuleId)).1,
          (b.step E cfg s (now, .anchor tenantId rootHash seqRange capsuleId)).2⟩ : BackendEvent b) =
          some (countersignedRoot E now tenantId rootHash seqRange) := by
        rw [hrun, hok]
        rfl
      intro t h
      rw [rootsOf_concat, hby, hrun]
      simp only
      rw [hput]
      by_cases hkey : (tenantId, rootHash) = (t, h)
      · obtain ⟨rfl, rfl⟩ := Prod.mk.inj hkey
        have hold : b.getRoot tenantId rootHash s₁ = b.storedRoot (rootsOf E es tenantId rootHash) := by
          rw [hbefore, hstored]
        have hone : ([countersignedRoot E now tenantId rootHash seqRange].filter
            fun root => (root.tenantId, root.rootHash) = (tenantId, rootHash)) =
            [countersignedRoot E now tenantId rootHash seqRange] := by
          simp [countersignedRoot]
        rw [Option.toList_some, hone]
        exact getRoot_putRoot E b s₁ (countersignedRoot E now tenantId rootHash seqRange) hold
      · rw [getRoot_putRoot_ne E b s₁ (countersignedRoot E now tenantId rootHash seqRange) hkey, hbefore, hstored t h]
        have hnone : ([countersignedRoot E now tenantId rootHash seqRange].filter
            fun root => (root.tenantId, root.rootHash) = (t, h)) = [] := by
          rw [List.filter_eq_nil_iff]
          intro root hroot
          rw [List.mem_singleton.1 hroot]
          simpa [countersignedRoot] using hkey
        rw [Option.toList_some, hnone, List.append_nil]
  | _ =>
    refine hquiet rfl ?_
    intro t h
    refine Prog.Calls.frame (b.getRoot t h) (fun c s hc => getRoot_frame E b s hc t h) ?_ s
    exact program_calls E cfg (by intro _ _ _ _ h; cases h) now

end Step

/-! ### Runs -/

theorem stored_after (b : Backend) (rs : List ((Nat → Datetime) × Request)) :
    RootsStored E (Run.trace (b.step E cfg) b.empty rs) (Run.after (b.step E cfg) b.empty rs) :=
  Run.history (b.step E cfg) (rootsStored_empty E) (fun _ _ r h => rootsStored_step E cfg h r) rs

private theorem verify_of_mem (hverify : AttestationsVerify E) {b : Backend} {es : List (BackendEvent b)} {t h : String}
    {root : CountersignedRoot} (hroot : root ∈ rootsOf E es t h) : verifyCountersignature E root = true := by
  obtain ⟨e, -, he⟩ := List.mem_filterMap.1 (List.mem_filter.1 hroot).1
  unfold countersignedBy at he
  split at he
  · rw [← Option.some.inj he]
    exact hverify _ _
  · cases he

/-- The root of the last call is stored and verifies exactly when this is not Postgres, or the range is that of the first
call for the tenant and the root hash. -/
theorem stored_roots_verify (hverify : AttestationsVerify E) (b : Backend) (rs : List ((Nat → Datetime) × Request))
    (tenantId rootHash : String) (first last : CountersignedRoot) :
    let roots := rootsOf E (Run.trace (b.step E cfg) b.empty rs) tenantId rootHash
    roots.head? = some first → roots.getLast? = some last →
    (b.getRoot tenantId rootHash (Run.after (b.step E cfg) b.empty rs) = some last ∧
      verifyCountersignature E last = true ↔ b ≠ .postgres ∨ last.seqRange = first.seqRange) := by
  intro roots hfirst hlast
  have hvalid : verifyCountersignature E last = true := verify_of_mem E hverify (List.mem_of_getLast? hlast)
  rw [stored_after E cfg b rs tenantId rootHash]
  cases b with
  | memory => simp [Backend.storedRoot, hvalid, show rootsOf E _ _ _ = roots from rfl, hlast]
  | sqlite => simp [Backend.storedRoot, hvalid, show rootsOf E _ _ _ = roots from rfl, hlast]
  | postgres =>
    have hrow : Backend.storedRoot .postgres roots = some { last with seqRange := first.seqRange } := by
      simp [Backend.storedRoot, hfirst, hlast]
    rw [show rootsOf E _ _ _ = roots from rfl, hrow]
    constructor
    · rintro ⟨hsame, -⟩
      have hranges := congrArg CountersignedRoot.seqRange (Option.some.inj hsame)
      exact .inr hranges.symm
    · rintro (hne | hsame)
      · exact absurd rfl hne
      · exact ⟨by rw [← hsame], hvalid⟩

/-! ### A root that is anchored again -/

/-- On Postgres an anchor without a capsule returns while the integers fit. -/
private theorem anchor_returns {s : SqlStore} (hs : Indexed s.logEntries) (hsize : s.logEntries.length < 2 ^ 63)
    (now : Nat → Datetime) (tenantId rootHash : String) {seqRange : Int × Int}
    (hrange : FitsColumn seqRange.1 ∧ FitsColumn seqRange.2) :
    ∃ receipt s', Backend.postgres.step E cfg s (now, .anchor tenantId rootHash seqRange none) =
        (.ok (.anchored receipt), s') ∧ Indexed s'.logEntries ∧ s'.logEntries.length = s.logEntries.length + 1 := by
  let entry := nextEntry E s.logEntries logKindRoot (countersignPayload tenantId rootHash seqRange (now 0)) (now 0) (now 2)
  let s₁ : SqlStore := { s with logEntries := s.logEntries ++ [entry] }
  let root := countersignedRoot E now tenantId rootHash seqRange
  have hfits : ¬ s.Overflows E (.appendEntry entry) := by
    have hindex : entry.logIndex = s.logEntries.length := rfl
    intro h
    refine h ⟨?_, ?_⟩ <;> omega
  have happend : (appendLog E logKindRoot (countersignPayload tenantId rootHash seqRange (now 0)) (now 0)
      (now 2)).runRaising (Backend.postgres.Raises E) (Backend.postgres.exec E) s = (.ok entry, s₁) :=
    ((overTables_postgres E).run_appendLog hs _ _ _ _).trans (if_neg hfits)
  have hput : (store (.putRoot root)).runRaising (Backend.postgres.Raises E) (Backend.postgres.exec E) s₁ =
      (.ok (), s₁.putRoot root) := Prog.runRaising_perform (fun h => h hrange)
  obtain ⟨receipt, hanchor⟩ : ∃ receipt : TransparencyLogEntry → AnchorReceipt,
      anchor E now tenantId rootHash seqRange none =
        appendLog E logKindRoot (countersignPayload tenantId rootHash seqRange (now 0)) (now 0) (now 2) >>= fun entry =>
          store (.putRoot root) >>= fun _ => pure (receipt entry) := ⟨_, rfl⟩
  refine ⟨receipt entry, s₁.putRoot root, ?_, hs.append (e := entry) rfl, by simp [SqlStore.putRoot, s₁]⟩
  rw [Backend.step, Request.program, Prog.runRaising_map, hanchor, Prog.runRaising_bind_ok happend,
    Prog.runRaising_bind_ok hput]
  rfl

private abbrev anchorEnv : Env := refEnv [] [] fun _ _ _ _ _ => true

private abbrev anchorClock (t : Int) : Nat → Datetime := fun i => ⟨t + i, 0⟩

set_option maxRecDepth 100000 in
private theorem range_signed : verifyCountersignature anchorEnv
    { countersignedRoot anchorEnv (anchorClock 10) "tenant" "root" (1, 3) with seqRange := (1, 2) } = false := by
  decide +kernel

private theorem verify_anchorEnv : AttestationsVerify anchorEnv := by
  intro payload createdAt
  exact show (refSign payload == refSign payload) = true from beq_self_eq_true _

/-- Two calls for one tenant and root, with these ranges. -/
private abbrev anchoredTwice (first second : Int × Int) : List ((Nat → Datetime) × Request) :=
  [(anchorClock 0, .anchor "tenant" "root" first none), (anchorClock 10, .anchor "tenant" "root" second none)]

/-- Both calls return. -/
private theorem rootsOf_anchoredTwice (first second : Int × Int) (hfirst : FitsColumn first.1 ∧ FitsColumn first.2)
    (hsecond : FitsColumn second.1 ∧ FitsColumn second.2) :
    rootsOf anchorEnv (Run.trace (Backend.postgres.step anchorEnv {}) {} (anchoredTwice first second)) "tenant" "root" =
      [countersignedRoot anchorEnv (anchorClock 0) "tenant" "root" first,
        countersignedRoot anchorEnv (anchorClock 10) "tenant" "root" second] := by
  obtain ⟨receipt₁, s₁, hstep₁, hindexed, hlen⟩ := anchor_returns anchorEnv {} (s := {}) indexed_nil (by decide)
    (anchorClock 0) "tenant" "root" hfirst
  obtain ⟨receipt₂, s₂, hstep₂, -⟩ := anchor_returns anchorEnv {} hindexed (by rw [hlen]; decide)
    (anchorClock 10) "tenant" "root" hsecond
  simp only [Run.trace, hstep₁, hstep₂]
  rfl

/-- A root that is anchored again with the same range. -/
theorem stored_roots_verify_sample :
    let last := countersignedRoot anchorEnv (anchorClock 10) "tenant" "root" (1, 2)
    Backend.postgres.getRoot "tenant" "root"
        (Run.after (Backend.postgres.step anchorEnv {}) {} (anchoredTwice (1, 2) (1, 2))) = some last ∧
      verifyCountersignature anchorEnv last = true := by
  intro last
  have hroots := rootsOf_anchoredTwice (1, 2) (1, 2) (by decide) (by decide)
  refine (stored_roots_verify anchorEnv {} verify_anchorEnv .postgres _ "tenant" "root"
    (countersignedRoot anchorEnv (anchorClock 0) "tenant" "root" (1, 2)) last ?_ ?_).2 (.inr rfl)
  · exact congrArg List.head? hroots
  · exact congrArg List.getLast? hroots

/-- On Postgres a root that is anchored again with another range does not verify. -/
theorem stored_root_rejected :
    let s := Run.after (Backend.postgres.step anchorEnv {}) {} (anchoredTwice (1, 2) (1, 3))
    let last := countersignedRoot anchorEnv (anchorClock 10) "tenant" "root" (1, 3)
    ∃ row, Backend.postgres.getRoot "tenant" "root" s = some row ∧ row ≠ last ∧
      verifyCountersignature anchorEnv row = false := by
  intro s last
  have hroots := rootsOf_anchoredTwice (1, 2) (1, 3) (by decide) (by decide)
  refine ⟨{ last with seqRange := (1, 2) }, ?_, ?_, range_signed⟩
  · have hstored := stored_after anchorEnv {} .postgres (anchoredTwice (1, 2) (1, 3)) "tenant" "root"
    exact hstored.trans (congrArg (Backend.storedRoot .postgres) hroots)
  · intro h
    have hrange : ((1, 2) : Int × Int) = (1, 3) := congrArg CountersignedRoot.seqRange h
    exact absurd hrange (by decide)

end CapsuleAnchor

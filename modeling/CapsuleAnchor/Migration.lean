import CapsuleAnchor.Dedup

/-!
# The migration window

A store from before the migration holds COSE_Sign1 statements under the hash of the whole envelope
(`PreMigration`).  The dual lookup tries the new key first, so such a statement is answered with its old receipt
exactly as long as the new key is free (`answered_iff`).  The new key is the hash of the `Sig_structure`, which every
twin of the statement has: once a twin is registered, the old bytes are answered with the twin's receipt
(`migration_window_overtaken`).

`migration_window`: in a run where no other bytes with the statement's new key are submitted, every submission of the
old bytes is answered with the old receipt.
-/

namespace CapsuleAnchor

variable (E : Env) (cfg : Config)

/-- The store holds `statementBytes` as it was registered before the migration. -/
structure PreMigration (s : MemoryStore) (statementBytes : Bytes) (row : CoseReceipt × Int × Nat) : Prop where
  statement : ∃ protectedBstr unprotected payload sig,
    decodeCoseSign1 E statementBytes = some ⟨protectedBstr, unprotected, some payload, sig⟩
  cached : s.statements.lookup (legacyEntryHash E statementBytes) = some row
  logged : ∃ (i : Nat) (e : TransparencyLogEntry), row.2.1 = i ∧ s.log[i]? = some e ∧ e.kind = logKindScitt ∧
    e.payloadHash = legacyEntryHash E statementBytes

/-- The old receipt, under the old hash. -/
def OldAnswer (statementBytes : Bytes) (row : CoseReceipt × Int × Nat) (result : StatementRegistration) : Prop :=
  result.row = row ∧ result.entryHash = legacyEntryHash E statementBytes

variable {s : MemoryStore} {b : Bytes} {row : CoseReceipt × Int × Nat} {sub : Submission}

private theorem scheme_of_preMigration (hpre : PreMigration E s b row) (hprep : prepare E cfg.payloadPolicy b = .ok sub) :
    sub.scheme = .sigStructure := by
  obtain ⟨p, u, pl, sig, hdecode⟩ := hpre.statement
  have hpreimage := (prepare_ok E hprep).preimage
  rw [entryHashPreimage, hdecode] at hpreimage
  exact congrArg Prod.snd hpreimage

/-- With the new key free, the dual lookup finds the old row. -/
private theorem cached_of_free (hpre : PreMigration E s b row) (hprep : prepare E cfg.payloadPolicy b = .ok sub)
    (hfree : s.statements.lookup sub.entryHash = none) : cachedStatement s sub = (some row, .legacy) := by
  have hlegacy : s.statements.lookup sub.legacyHash = some row := by
    rw [(prepare_ok E hprep).legacyHash]
    exact hpre.cached
  have hne : sub.entryHash ≠ sub.legacyHash := by
    intro heq
    rw [heq, hlegacy] at hfree
    cases hfree
  simp only [cachedStatement, hfree, if_pos hne, hlegacy]

private theorem oldAnswer_of_free (hpre : PreMigration E s b row) (hprep : prepare E cfg.payloadPolicy b = .ok sub)
    (hfree : s.statements.lookup sub.entryHash = none) (now : Nat → Datetime) (grade : Option String)
    (cp : Option Checkpoint) :
    ∃ result, (registerSignedStatementFull E cfg now b grade cp).run MemoryStore.exec s = (.ok result, s) ∧
      OldAnswer E b row result := by
  refine ⟨_, register_cached_run E cfg hprep (cached_of_free E cfg hpre hprep hfree) now grade cp, rfl, ?_⟩
  rw [cachedResult, if_pos rfl, (prepare_ok E hprep).legacyHash]
  rfl

/-- The statement is answered with its old receipt exactly when its new key is free. -/
theorem answered_iff (hpre : PreMigration E s b row) (hprep : prepare E cfg.payloadPolicy b = .ok sub)
    (hne : sub.entryHash ≠ sub.legacyHash) (now : Nat → Datetime) (grade : Option String) (cp : Option Checkpoint) :
    (∃ result, (registerSignedStatementFull E cfg now b grade cp).run MemoryStore.exec s = (.ok result, s) ∧
      OldAnswer E b row result) ↔ s.statements.lookup sub.entryHash = none := by
  constructor
  · rintro ⟨result, hrun, -, hold⟩
    cases hnew : s.statements.lookup sub.entryHash with
    | none => rfl
    | some found =>
      have hscheme := scheme_of_preMigration E cfg hpre hprep
      have hfound : cachedStatement s sub = (some found, sub.scheme) := by
        simp only [cachedStatement, hnew]
      rw [register_cached_run E cfg hprep hfound now grade cp] at hrun
      obtain rfl : cachedResult s sub found sub.scheme cp = result := by simpa using hrun
      rw [cachedResult, if_neg (by simp [hscheme])] at hold
      have hlegacy : sub.legacyHash = legacyEntryHash E b := (prepare_ok E hprep).legacyHash
      exact absurd (hold.trans hlegacy.symm) hne
  · intro hfree
    exact oldAnswer_of_free E cfg hpre hprep hfree now grade cp

/-! ### Runs -/

/-- No other bytes that the service accepts for registration have the entry hash `k`. -/
def Unrivalled (rs : List TimedRequest) (b : Bytes) (k : Digest) : Prop :=
  ∀ r ∈ rs, ∀ b' grade cp sub, r.2.submission E = some (b', grade, cp) →
    prepare E cfg.payloadPolicy b' = .ok sub → sub.entryHash = k → b' = b

/-- What a run keeps: the old row, and the new key free. -/
private theorem window_kept (hs : Indexed s.log) (hpre : PreMigration E s b row)
    (hprep : prepare E cfg.payloadPolicy b = .ok sub) (hfree : s.statements.lookup sub.entryHash = none)
    {r : TimedRequest} (hprune : ∀ seconds, r.2 ≠ .prune seconds) (hrival : Unrivalled E cfg [r] b sub.entryHash) :
    PreMigration E (step E cfg s r).2 b row ∧ (step E cfg s r).2.statements.lookup sub.entryHash = none := by
  have hstep := step_cases E cfg hs r
  constructor
  · obtain ⟨i, e, hi, he, hrest⟩ := hpre.logged
    refine ⟨hpre.statement, hstep.row_kept E cfg hprune hpre.cached, i, e, hi, ?_, hrest⟩
    have hlt := (List.getElem?_eq_some_iff.1 he).1
    rcases hstep.log with hlog | ⟨_, _, _, _, hlog⟩
    · rw [hlog, he]
    · rw [hlog, List.getElem?_append_left hlt, he]
  · cases hnew : (step E cfg s r).2.statements.lookup sub.entryHash with
    | none => rfl
    | some found =>
      rcases hstep.cache E cfg hnew with hold | hfiled
      · rw [hfree] at hold
        cases hold
      · -- only `b` itself could file a row there, and `b` is answered from the cache
        obtain ⟨b', grade, cp, sub', hsubmission, hprep', hkey, hmiss⟩ := hfiled.submission
        obtain rfl := hrival r List.mem_cons_self b' grade cp sub' hsubmission hprep' hkey
        obtain rfl : sub = sub' := Except.ok.inj (hprep.symm.trans hprep')
        rw [cached_of_free E cfg hpre hprep hfree] at hmiss
        cases hmiss

/-- In a run without rivals every submission of the old bytes is answered with the old receipt. -/
theorem migration_window (hs : Indexed s.log) (hpre : PreMigration E s b row)
    (hprep : prepare E cfg.payloadPolicy b = .ok sub) (hfree : s.statements.lookup sub.entryHash = none)
    (rs : List TimedRequest) (hprune : NoPrune rs) (hrival : Unrivalled E cfg rs b sub.entryHash) :
    ∀ e ∈ Run.trace (step E cfg) s rs, ∀ grade cp, e.request.2.submission E = some (b, grade, cp) →
      ∃ result, e.reply = .ok (.registered result) ∧ OldAnswer E b row result ∧ e.after.log = e.before.log := by
  intro e he grade cp hsubmission
  obtain ⟨pre, post, rfl, hbefore, hreply, hafter⟩ := Run.trace_split (step E cfg) he
  have hrequests : ∀ r ∈ pre, (∀ seconds, r.2 ≠ .prune seconds) ∧ Unrivalled E cfg [r] b sub.entryHash := by
    intro r hr
    refine ⟨hprune r (by simp [hr]), ?_⟩
    intro r' hr' b' grade' cp' sub' hsubmission' hprep' hkey
    obtain rfl := List.mem_singleton.1 hr'
    exact hrival r' (by simp [hr]) b' grade' cp' sub' hsubmission' hprep' hkey
  have hwindow := Run.invariant_of (step E cfg)
    (I := fun s => Indexed s.log ∧ PreMigration E s b row ∧ s.statements.lookup sub.entryHash = none)
    (Q := fun r => (∀ seconds, r.2 ≠ .prune seconds) ∧ Unrivalled E cfg [r] b sub.entryHash)
    (fun s r hr hs => ⟨indexed_step E cfg hs.1 r, window_kept E cfg hs.1 hs.2.1 hprep hs.2.2 hr.1 hr.2⟩)
    ⟨hs, hpre, hfree⟩ hrequests
  rw [← hbefore] at hwindow
  obtain ⟨result, hrun, hanswer⟩ := oldAnswer_of_free E cfg hwindow.2.1 hprep hwindow.2.2 e.request.1 grade cp
  have hstep := step_submission E cfg hsubmission hrun
  refine ⟨result, by rw [hreply, hstep], hanswer, ?_⟩
  rw [hafter, hstep]
  exact log_recordSurface _ _ _

/-! ### Three twins -/

section Twins

variable (clock : Nat → Datetime)

/-- The store that registered the first twin under the hash of its envelope. -/
def refOldStore : MemoryStore :=
  freshState refActEnv clock (rawSubmission refActEnv (refEnvelope [160])) none none none {}

/-- The row of that store. -/
def refOldRow : CoseReceipt × Int × Nat := issued refActEnv clock (rawSubmission refActEnv (refEnvelope [160])) none none []

private theorem statements_refOldStore : (refOldStore clock).statements =
    (∅ : Dict Digest (CoseReceipt × Int × Nat)).insert (legacyEntryHash refActEnv (refEnvelope [160])) (refOldRow clock) :=
  statements_freshState _ _ _ _ _ _ _

private theorem log_refOldStore : (refOldStore clock).log =
    [nextEntry refActEnv [] logKindScitt (refEnvelope [160]) (clock 0) (clock 1)] :=
  log_freshState _ _ _ _ _ _ _

private theorem indexed_refOldStore : Indexed (refOldStore clock).log := by
  rw [log_refOldStore]
  exact indexed_nil.append (e := nextEntry refActEnv [] logKindScitt (refEnvelope [160]) (clock 0) (clock 1)) rfl

private theorem preMigration_refOldStore :
    PreMigration refActEnv (refOldStore clock) (refEnvelope [160]) (refOldRow clock) := by
  obtain ⟨u, hdecode⟩ := decode_refEnvelope (.inr (.inl rfl))
  refine ⟨⟨_, u, _, _, hdecode⟩, ?_, 0, _, rfl, by rw [log_refOldStore]; rfl, rfl, rfl⟩
  rw [statements_refOldStore]
  exact AList.lookup_insert _

/-- The new key of the twins is free in the old store, and so is the envelope hash of the second one. -/
private theorem keys_free :
    (refOldStore clock).statements.lookup (refActEnv.sha256 (sigStructure refActEnv [161, 1, 39] (ascii "statement"))) =
      none ∧
    (refOldStore clock).statements.lookup (refActEnv.sha256 (refEnvelope [161, 97, 120, 1])) = none := by
  have hnodup := refHashes_nodup
  simp only [List.map_cons, List.map_nil, List.nodup_cons, List.mem_cons, List.not_mem_nil, or_false, not_or] at hnodup
  obtain ⟨⟨htwin, hsig⟩, -⟩ := hnodup
  rw [statements_refOldStore]
  have hsig' : refActEnv.sha256 (sigStructure refActEnv [161, 1, 39] (ascii "statement")) ≠
      legacyEntryHash refActEnv (refEnvelope [160]) := Ne.symm hsig
  have htwin' : refActEnv.sha256 (refEnvelope [161, 97, 120, 1]) ≠ legacyEntryHash refActEnv (refEnvelope [160]) :=
    Ne.symm htwin
  constructor
  · rw [AList.lookup_insert_ne hsig']
    exact AList.lookup_empty _
  · rw [AList.lookup_insert_ne htwin']
    exact AList.lookup_empty _

private theorem prepare_refEnvelope {header : Bytes} (h : header = [160] ∨ header = [161, 97, 120, 1]) :
    ∃ sub, prepare refActEnv ({} : Config).payloadPolicy (refEnvelope header) = .ok sub ∧
      sub.checkpointFields = none ∧ sub.scheme = .sigStructure ∧
      sub.entryHash = refActEnv.sha256 (sigStructure refActEnv [161, 1, 39] (ascii "statement")) ∧
      sub.legacyHash = refActEnv.sha256 (refEnvelope header) := by
  obtain ⟨u, hdecode⟩ := decode_refEnvelope (.inr h)
  have hsize : (refEnvelope header).length ≤ maxStatementBytes := by
    rw [length_refEnvelope, maxStatementBytes]
    rcases h with rfl | rfl <;> simp
  exact prepare_statement refActEnv _ hdecode hsize rfl

end Twins

/-- The old statement, submitted again to the old store. -/
theorem migration_window_sample :
    let clock : Nat → Datetime := fun i => ⟨i, 0⟩
    ∃ result, (step refActEnv {} (refOldStore clock) (clock, .register (refEnvelope [160]))).1 =
      .ok (.registered result) ∧ OldAnswer refActEnv (refEnvelope [160]) (refOldRow clock) result := by
  intro clock
  obtain ⟨sub, hprep, -, -, hkey, -⟩ := prepare_refEnvelope (.inl rfl)
  have hfree := (keys_free clock).1
  rw [← hkey] at hfree
  have hprune : NoPrune [(clock, .register (refEnvelope [160]))] := by
    intro r hr seconds
    obtain rfl := List.mem_singleton.1 hr
    nofun
  have hrival : Unrivalled refActEnv {} [(clock, .register (refEnvelope [160]))] (refEnvelope [160]) sub.entryHash := by
    intro r hr b grade cp sub' hsubmission _ _
    obtain rfl := List.mem_singleton.1 hr
    simp only [Request.submission, Option.some.injEq, Prod.mk.injEq] at hsubmission
    exact hsubmission.1.symm
  have hevery := migration_window refActEnv {} (indexed_refOldStore clock) (preMigration_refOldStore clock) hprep hfree _
    hprune hrival
  generalize hs : step refActEnv {} (refOldStore clock) (clock, .register (refEnvelope [160])) = answer at hevery ⊢
  have hmem : (⟨refOldStore clock, (clock, .register (refEnvelope [160])), answer.1, answer.2⟩ : ServiceEvent) ∈
      Run.trace (step refActEnv {}) (refOldStore clock) [(clock, .register (refEnvelope [160]))] := by
    rw [Run.trace, hs]
    exact List.mem_cons_self
  obtain ⟨result, hreply, hanswer, -⟩ := hevery _ hmem none none rfl
  exact ⟨result, hreply, hanswer⟩

/-- The old statement, submitted again after a twin: the answer is the twin's. -/
theorem migration_window_overtaken :
    let clock : Nat → Datetime := fun i => ⟨i, 0⟩
    PreMigration refActEnv (refOldStore clock) (refEnvelope [160]) (refOldRow clock) ∧
    SameAct refActEnv (refEnvelope [160]) (refEnvelope [161, 97, 120, 1]) ∧
    ∃ result s result', step refActEnv {} (refOldStore clock) (clock, .register (refEnvelope [161, 97, 120, 1])) =
        (.ok (.registered result), s) ∧
      step refActEnv {} s (clock, .register (refEnvelope [160])) = (.ok (.registered result'), s) ∧
      result'.entryHash ≠ legacyEntryHash refActEnv (refEnvelope [160]) ∧
      result'.leafIndex ≠ (refOldRow clock).2.1 := by
  intro clock
  obtain ⟨u, hdecode⟩ := decode_refEnvelope (.inr (.inl rfl))
  obtain ⟨v, hdecode'⟩ := decode_refEnvelope (.inr (.inr rfl))
  obtain ⟨sub, hprep, -, hscheme, hkey, hlegacy⟩ := prepare_refEnvelope (.inl rfl)
  obtain ⟨twin, hprepTwin, hfields, -, hkeyTwin, hlegacyTwin⟩ := prepare_refEnvelope (.inr rfl)
  obtain ⟨hfree, hfreeTwin⟩ := keys_free clock
  have hmiss : (cachedStatement (refOldStore clock) twin).1 = none := by
    rw [cachedStatement_none, hkeyTwin, hlegacyTwin]
    exact ⟨hfree, hfreeTwin⟩
  have hfirst := step_register_fresh refActEnv {} (indexed_refOldStore clock) hprepTwin hfields hmiss clock
  generalize hs : freshState refActEnv clock twin none none none (refOldStore clock) = s at hfirst
  -- the twin's row is the one that the old bytes find
  have hrow : s.statements.lookup sub.entryHash =
      some (issued refActEnv clock twin none none (refOldStore clock).log) := by
    rw [← hs, statements_freshState, hkey, ← hkeyTwin]
    exact AList.lookup_insert _
  have hfound : cachedStatement s sub =
      (some (issued refActEnv clock twin none none (refOldStore clock).log), sub.scheme) := by
    simp only [cachedStatement, hrow]
  have hsecond := step_submission refActEnv {} (show Request.submission refActEnv (.register (refEnvelope [160])) = _ from rfl)
    (register_cached_run refActEnv {} hprep hfound clock none none)
  refine ⟨preMigration_refOldStore clock, ⟨_, _, u, v, _, _, hdecode, hdecode'⟩, _, s, _, hfirst, hsecond, ?_, ?_⟩
  · rw [cachedResult, if_neg (by simp [hscheme])]
    intro heq
    have hcached := (preMigration_refOldStore clock).cached
    rw [← heq, hkey, hfree] at hcached
    cases hcached
  · rw [log_refOldStore]
    exact show (1 : Int) ≠ 0 by decide

end CapsuleAnchor

import CapsuleAnchor.Steps

/-!
# The statement cache

What a run puts into the cache and takes from it.  A step that files a row (`Filed`) submitted bytes with that entry
hash, found the key free and appended a log entry; no other step adds a row (`ServiceStep.cache`).  A registration
that returns either files its row or returns one that is there (`registered_filed`).

So in every run each cached row was filed by one of the steps (`filed_of_cached`), and each receipt returned was
issued by that step or by an earlier one (`filed_of_registered`).
-/

namespace CapsuleAnchor

variable (E : Env) (cfg : Config)

/-- The row a registration returns. -/
def StatementRegistration.row (result : StatementRegistration) : CoseReceipt × Int × Nat :=
  (result.receipt, result.leafIndex, result.treeSize)

/-- The step appended a statement and cached its receipt. -/
structure Filed (e : ServiceEvent) (k : Digest) (row : CoseReceipt × Int × Nat) : Prop where
  reply : ∃ result, e.reply = .ok (.registered result) ∧ result.entryHash = k ∧ result.row = row
  submission : ∃ statementBytes grade cp sub, e.request.2.submission E = some (statementBytes, grade, cp) ∧
    prepare E cfg.payloadPolicy statementBytes = .ok sub ∧ sub.entryHash = k ∧ (cachedStatement e.before sub).1 = none
  cached : e.after.statements.lookup k = some row
  log : e.before.log.length < e.after.log.length

theorem Prepared.computeEntryHash {statementBytes : Bytes} {sub : Submission} (h : Prepared E statementBytes sub) :
    (computeEntryHash E statementBytes).1 = sub.entryHash := by
  rw [CapsuleAnchor.computeEntryHash, ← h.preimage, h.entryHash]

/-- The dual lookup names the key it found the row under. -/
theorem cachedStatement_some {s : MemoryStore} {statementBytes : Bytes} {sub : Submission}
    {found : CoseReceipt × Int × Nat} {scheme : EntryHashScheme} (hprep : Prepared E statementBytes sub)
    (h : cachedStatement s sub = (some found, scheme)) :
    s.statements.lookup (if scheme = .legacy then sub.legacyHash else sub.entryHash) = some found := by
  unfold cachedStatement at h
  split at h
  · rename_i row hrow
    obtain ⟨rfl, rfl⟩ : row = found ∧ sub.scheme = scheme := by simpa using h
    by_cases hlegacy : sub.scheme = .legacy
    · rw [if_pos hlegacy, hprep.legacy_eq hlegacy, hrow]
    · rw [if_neg hlegacy, hrow]
  · split at h
    · obtain ⟨hrow, rfl⟩ : s.statements.lookup sub.legacyHash = some found ∧ .legacy = scheme := by simpa using h
      exact hrow
    · simp at h

/-- The bytes that a filing step submitted. -/
theorem Filed.submitted {e : ServiceEvent} {k : Digest} {row : CoseReceipt × Int × Nat} (h : Filed E cfg e k row) :
    ∃ statementBytes grade cp, e.request.2.submission E = some (statementBytes, grade, cp) ∧
      (CapsuleAnchor.computeEntryHash E statementBytes).1 = k := by
  obtain ⟨b, grade, cp, sub, hsubmission, hprep, hkey, -⟩ := h.submission
  exact ⟨b, grade, cp, hsubmission, ((prepare_ok E hprep).computeEntryHash E).trans hkey⟩

/-! ### One step -/

variable {now : Nat → Datetime} {s s' : MemoryStore} {request : Request} {reply : Except ServiceError Reply}

private theorem filed_fresh (now : Nat → Datetime) (status : Option WitnessStatus) (g : Option ContinuityGrade)
    {statementBytes : Bytes} {grade : Option String} {cp : Option Checkpoint}
    (hsubmission : request.submission E = some (statementBytes, grade, cp)) {sub : Submission} {s₁ : MemoryStore}
    (hprep : prepare E cfg.payloadPolicy statementBytes = .ok sub) (hmiss : (cachedStatement s sub).1 = none)
    (hsame : SameStore s s₁) :
    let result := freshResult E now sub grade cp g status s.log
    Filed E cfg ⟨s, (now, request), .ok (.registered result), recordSurface cp result (freshState E now sub grade cp g s₁)⟩
      sub.entryHash result.row := by
  intro result
  obtain ⟨w, rfl⟩ := hsame
  refine ⟨⟨result, rfl, rfl, rfl⟩, ⟨_, _, _, sub, hsubmission, hprep, rfl, hmiss⟩, ?_, ?_⟩
  · simp only [statements_recordSurface, statements_freshState, AList.lookup_insert]
    rfl
  · simp

theorem ServiceStep.cache (h : ServiceStep E cfg now s request reply s') {k : Digest} {row : CoseReceipt × Int × Nat}
    (hk : s'.statements.lookup k = some row) :
    s.statements.lookup k = some row ∨ Filed E cfg ⟨s, (now, request), reply, s'⟩ k row := by
  cases h with
  | refused _ e _ hsame =>
    obtain ⟨w, rfl⟩ := hsame
    exact .inl hk
  | anchored _ _ _ _ _ _ entry hentry hstate =>
    rw [hstate] at hk
    exact .inl hk
  | registered _ _ grade cp result s₁ hsubmission hstep =>
    rw [statements_recordSurface] at hk
    cases hstep with
    | cached => exact .inl hk
    | fresh sub s₂ status g hprep hmiss hsame =>
      have hfiled := filed_fresh E cfg now status g hsubmission hprep hmiss hsame
      rw [statements_freshState] at hk
      by_cases hkey : k = sub.entryHash
      · subst hkey
        have hrow := hfiled.cached
        rw [statements_recordSurface, statements_freshState] at hrow
        rw [← Option.some.inj (hrow.symm.trans hk)]
        exact .inr hfiled
      · rw [AList.lookup_insert_ne hkey] at hk
        obtain ⟨w, rfl⟩ := hsame
        exact .inl hk
  | signed =>
    rw [statements_putSth] at hk
    exact .inl hk
  | current => exact .inl hk
  | pruned _ _ _ hsub _ => exact .inl (hsub k row hk)

/-- A registration that returns has filed its row or returns one that is there. -/
theorem registered_filed {result : StatementRegistration}
    (h : ServiceStep E cfg now s request (.ok (.registered result)) s') :
    (s.statements.lookup result.entryHash = some result.row ∧ s'.log = s.log) ∨
      Filed E cfg ⟨s, (now, request), .ok (.registered result), s'⟩ result.entryHash result.row := by
  cases h with
  | registered _ _ grade cp _ s₁ hsubmission hstep =>
    cases hstep with
    | cached sub found scheme hprep hfound =>
      left
      exact ⟨cachedStatement_some E (prepare_ok E hprep) hfound, log_recordSurface _ _ _⟩
    | fresh sub s₂ status g hprep hmiss hsame =>
      exact .inr (filed_fresh E cfg now status g hsubmission hprep hmiss hsame)

/-! ### Runs -/

/-- Every cached row was filed by a step of the run. -/
theorem filed_of_cached (rs : List TimedRequest) {k : Digest} {row : CoseReceipt × Int × Nat}
    (hk : (Run.after (step E cfg) {} rs).statements.lookup k = some row) :
    ∃ e ∈ Run.trace (step E cfg) {} rs, Filed E cfg e k row := by
  have hrun := Run.history (step E cfg) (s := {})
    (P := fun es s => Indexed s.log ∧ ∀ k row, s.statements.lookup k = some row → ∃ e ∈ es, Filed E cfg e k row)
    ⟨indexed_nil, nofun⟩ ?_ rs
  · exact hrun.2 k row hk
  · rintro es s r ⟨hindexed, hcache⟩
    refine ⟨indexed_step E cfg hindexed r, ?_⟩
    intro k row hk
    rcases (step_cases E cfg hindexed r).cache E cfg hk with hold | hfiled
    · obtain ⟨e, he, hfiled⟩ := hcache k row hold
      exact ⟨e, List.mem_append_left _ he, hfiled⟩
    · exact ⟨_, List.mem_append_right _ (List.mem_singleton_self _), hfiled⟩

/-- Every receipt a run returns was issued by one of its steps. -/
theorem filed_of_registered {rs : List TimedRequest} {e : ServiceEvent} (he : e ∈ Run.trace (step E cfg) {} rs)
    {result : StatementRegistration} (hreply : e.reply = .ok (.registered result)) :
    ∃ e₀ ∈ Run.trace (step E cfg) {} rs, Filed E cfg e₀ result.entryHash result.row := by
  have hstep := event_step E cfg he
  rw [hreply] at hstep
  rcases registered_filed E cfg hstep with ⟨hcached, -⟩ | hfiled
  · obtain ⟨pre, post, rfl, hbefore, -⟩ := Run.trace_split (step E cfg) he
    rw [hbefore] at hcached
    obtain ⟨e₀, he₀, hfiled⟩ := filed_of_cached E cfg pre hcached
    refine ⟨e₀, ?_, hfiled⟩
    rw [Run.trace_append]
    exact List.mem_append_left _ he₀
  · rw [← hreply] at hfiled
    exact ⟨e, he, hfiled⟩

end CapsuleAnchor

import CapsuleAnchor.Cache
import CapsuleAnchor.Reference

/-!
# One entry for a signing act

The statement cache and the log agree (`Matched`): the `scitt_statement` entries have distinct payload hashes, and
those are the keys of the cache.  Nothing but the pruner takes a row out, and no row is ever replaced, so a statement
whose key was cached is answered with the same receipt for ever.

The key is the hash of the `Sig_structure`, so every twin of a signing act has it.  The legacy key, the hash of the
whole envelope, is tried second; a service that started empty never finds a row there (`legacy_free`).

`registered_once`: each signing act has one entry, and whoever submits it again, within the size limit, gets the
receipt of the first time.
-/

namespace CapsuleAnchor

variable (E : Env) (cfg : Config)

/-! ### Twins -/

/-- Two COSE_Sign1 with the same protected bytes and the same embedded payload. -/
def SameAct (a b : Bytes) : Prop :=
  ∃ protectedBstr payload u v sig sig', decodeCoseSign1 E a = some ⟨protectedBstr, u, some payload, sig⟩ ∧
    decodeCoseSign1 E b = some ⟨protectedBstr, v, some payload, sig'⟩

theorem SameAct.computeEntryHash {a b : Bytes} (h : SameAct E a b) :
    computeEntryHash E a = computeEntryHash E b := by
  obtain ⟨p, pl, u, v, sig, sig', ha, hb⟩ := h
  simp only [CapsuleAnchor.computeEntryHash, entryHashPreimage, ha, hb]

/-- A twin prepares as the original does, if it is not too large. -/
theorem prepare_twin {policy : EmbeddedPayloadPolicy} {a b : Bytes} {sub : Submission} (h : SameAct E a b)
    (hsize : b.length ≤ maxStatementBytes) (hprep : prepare E policy a = .ok sub) :
    ∃ sub', prepare E policy b = .ok sub' ∧ sub'.entryHash = sub.entryHash ∧ sub'.scheme = .sigStructure := by
  have hsizeA := (prepare_ok E hprep).length_le
  obtain ⟨p, pl, u, v, sig, sig', ha, hb⟩ := h
  have hpreA : entryHashPreimage E a = (sigStructure E p pl, .sigStructure) := by
    simp only [entryHashPreimage, ha]
  have hpreB : entryHashPreimage E b = (sigStructure E p pl, .sigStructure) := by
    simp only [entryHashPreimage, hb]
  rw [prepare, if_neg (by omega)] at hprep
  rw [prepare, if_neg (by omega)]
  simp only [ha, hpreA, if_true] at hprep
  simp only [hb, hpreB, if_true]
  cases hparse : parseCheckpointPayload E (some pl) with
  | error e => simp [hparse, Except.map] at hprep
  | ok fields =>
    rw [hparse] at hprep
    obtain rfl := Except.ok.inj hprep
    exact ⟨_, rfl, rfl, rfl⟩

/-! ### The cache and the log -/

/-- The `scitt_statement` entries of the log and the rows of the cache are the same statements, each once. -/
structure Matched (s : MemoryStore) : Prop where
  distinct : ∀ (i j : Nat) (x y : TransparencyLogEntry), s.log[i]? = some x → s.log[j]? = some y →
    x.kind = logKindScitt → y.kind = logKindScitt → x.payloadHash = y.payloadHash → i = j
  cached : ∀ k row, s.statements.lookup k = some row →
    ∃ (i : Nat) (e : TransparencyLogEntry), row.2.1 = i ∧ s.log[i]? = some e ∧ e.kind = logKindScitt ∧ e.payloadHash = k
  logged : ∀ (i : Nat) (e : TransparencyLogEntry), s.log[i]? = some e → e.kind = logKindScitt →
    ∃ row, s.statements.lookup e.payloadHash = some row

private theorem matched_empty : Matched {} where
  distinct := by
    intro i j x y hx
    simp at hx
  cached := by
    intro k row h
    cases h
  logged := by
    intro i e he
    simp at he

theorem getElem?_concat {α : Type} {l : List α} {a x : α} {i : Nat} (h : (l ++ [a])[i]? = some x) :
    l[i]? = some x ∨ i = l.length ∧ a = x := by
  rcases Nat.lt_trichotomy i l.length with hi | rfl | hi
  · rw [List.getElem?_append_left hi] at h
    exact .inl h
  · exact .inr ⟨rfl, by simpa using h⟩
  · rw [List.getElem?_eq_none (by simp; omega)] at h
    cases h

/-- An entry of another kind changes nothing. -/
private theorem Matched.append_other {s s' : MemoryStore} (hs : Matched s) {entry : TransparencyLogEntry}
    (hkind : entry.kind ≠ logKindScitt) (hlog : s'.log = s.log ++ [entry]) (hcache : s'.statements = s.statements) :
    Matched s' := by
  have hold : ∀ (i : Nat) (x : TransparencyLogEntry), s'.log[i]? = some x → x.kind = logKindScitt → s.log[i]? = some x := by
    intro i x hx hkindx
    rw [hlog] at hx
    rcases getElem?_concat hx with h | ⟨-, rfl⟩
    · exact h
    · exact absurd hkindx hkind
  constructor
  · intro i j x y hx hy hkx hky heq
    exact hs.distinct i j x y (hold i x hx hkx) (hold j y hy hky) hkx hky heq
  · intro k row hk
    rw [hcache] at hk
    obtain ⟨i, e, hi, he, hrest⟩ := hs.cached k row hk
    refine ⟨i, e, hi, ?_, hrest⟩
    rw [hlog, List.getElem?_append_left (List.getElem?_eq_some_iff.1 he).1, he]
  · intro i e he hkinde
    rw [hcache]
    exact hs.logged i e (hold i e he hkinde) hkinde

/-- A statement whose key is free is appended and cached. -/
private theorem Matched.append_statement {s s' : MemoryStore} (hs : Matched s) {entry : TransparencyLogEntry}
    {row : CoseReceipt × Int × Nat} (hkind : entry.kind = logKindScitt)
    (hfree : s.statements.lookup entry.payloadHash = none) (hrow : row.2.1 = s.log.length)
    (hlog : s'.log = s.log ++ [entry]) (hcache : s'.statements = s.statements.insert entry.payloadHash row) :
    Matched s' := by
  -- the new hash is in no old entry, since the cache has a row for each
  have hnew : ∀ (i : Nat) (x : TransparencyLogEntry), s.log[i]? = some x → x.kind = logKindScitt → x.payloadHash ≠ entry.payloadHash := by
    intro i x hx hkx heq
    obtain ⟨old, hold⟩ := hs.logged i x hx hkx
    rw [heq, hfree] at hold
    cases hold
  constructor
  · intro i j x y hx hy hkx hky heq
    rw [hlog] at hx hy
    rcases getElem?_concat hx with hx | ⟨rfl, rfl⟩ <;> rcases getElem?_concat hy with hy | ⟨rfl, rfl⟩
    · exact hs.distinct i j x y hx hy hkx hky heq
    · exact absurd heq (hnew i x hx hkx)
    · exact absurd heq.symm (hnew j y hy hky)
    · rfl
  · intro k row' hk
    rw [hcache] at hk
    by_cases hkey : k = entry.payloadHash
    · subst hkey
      obtain rfl : row = row' := by simpa using hk
      exact ⟨s.log.length, entry, hrow, by rw [hlog]; simp, hkind, rfl⟩
    · rw [AList.lookup_insert_ne hkey] at hk
      obtain ⟨i, e, hi, he, hrest⟩ := hs.cached k row' hk
      refine ⟨i, e, hi, ?_, hrest⟩
      rw [hlog, List.getElem?_append_left (List.getElem?_eq_some_iff.1 he).1, he]
  · intro i e he hkinde
    rw [hlog] at he
    rw [hcache]
    rcases getElem?_concat he with he | ⟨-, rfl⟩
    · obtain ⟨old, hold⟩ := hs.logged i e he hkinde
      rw [AList.lookup_insert_ne (hnew i e he hkinde)]
      exact ⟨old, hold⟩
    · exact ⟨row, AList.lookup_insert _⟩

private theorem Matched.of_eq {s s' : MemoryStore} (hs : Matched s) (hlog : s'.log = s.log)
    (hcache : s'.statements = s.statements) : Matched s' := by
  constructor
  · rw [hlog]
    exact hs.distinct
  · rw [hlog, hcache]
    exact hs.cached
  · rw [hlog, hcache]
    exact hs.logged

variable {now : Nat → Datetime} {s s' : MemoryStore} {request : Request} {reply : Except ServiceError Reply}

/-- The pruner aside, a request keeps the cache and the log in agreement. -/
theorem ServiceStep.matched (h : ServiceStep E cfg now s request reply s') (hprune : ∀ seconds, request ≠ .prune seconds)
    (hs : Matched s) : Matched s' := by
  cases h with
  | refused _ e _ hsame =>
    obtain ⟨w, rfl⟩ := hsame
    exact hs.of_eq rfl rfl
  | anchored _ _ _ _ _ _ entry hentry hstate =>
    rw [hstate]
    refine hs.append_other ?_ rfl rfl
    rw [hentry]
    exact show logKindRoot ≠ logKindScitt by decide
  | registered _ _ grade cp result s₁ hsubmission hstep =>
    refine Matched.of_eq (s := s₁) ?_ (log_recordSurface _ _ _) (statements_recordSurface _ _ _)
    cases hstep with
    | cached => exact hs
    | fresh sub s₂ status g hprep hmiss hsame =>
      have hkey := (prepare_ok E hprep).entryHash
      have hfree := (cachedStatement_none.1 hmiss).1
      have hlog := log_freshState E now sub grade cp g s₂
      have hcache := statements_freshState E now sub grade cp g s₂
      rw [hkey] at hfree
      rw [hsame.log] at hlog
      rw [hkey, hsame.log, hsame.statements] at hcache
      exact hs.append_statement rfl hfree rfl hlog hcache
  | signed => exact hs.of_eq (log_putSth _ _) (statements_putSth _ _)
  | current => exact hs
  | pruned seconds => exact absurd rfl (hprune seconds)

/-- The pruner aside, a request keeps every row. -/
theorem ServiceStep.row_kept (h : ServiceStep E cfg now s request reply s') (hprune : ∀ seconds, request ≠ .prune seconds)
    {k : Digest} {row : CoseReceipt × Int × Nat} (hk : s.statements.lookup k = some row) :
    s'.statements.lookup k = some row := by
  cases h with
  | refused _ e _ hsame =>
    obtain ⟨w, rfl⟩ := hsame
    exact hk
  | anchored _ _ _ _ _ _ entry hentry hstate =>
    rw [hstate]
    exact hk
  | registered _ _ grade cp result s₁ hsubmission hstep =>
    rw [statements_recordSurface]
    cases hstep with
    | cached => exact hk
    | fresh sub s₂ status g hprep hmiss hsame =>
      obtain ⟨w, rfl⟩ := hsame
      -- the key of the new row was free
      have hne : k ≠ sub.entryHash := by
        rintro rfl
        rw [(cachedStatement_none.1 hmiss).1] at hk
        cases hk
      rw [statements_freshState, AList.lookup_insert_ne hne]
      exact hk
  | signed => rwa [statements_putSth]
  | current => exact hk
  | pruned seconds => exact absurd rfl (hprune seconds)

/-! ### Runs without the pruner -/

def NoPrune (rs : List TimedRequest) : Prop := ∀ r ∈ rs, ∀ seconds, r.2 ≠ .prune seconds

private theorem good_step {s : MemoryStore} (r : TimedRequest) (hprune : ∀ seconds, r.2 ≠ .prune seconds)
    (hs : Indexed s.log ∧ Matched s) : Indexed (step E cfg s r).2.log ∧ Matched (step E cfg s r).2 :=
  ⟨indexed_step E cfg hs.1 r, (step_cases E cfg hs.1 r).matched E cfg hprune hs.2⟩

theorem matched_after {rs : List TimedRequest} (hprune : NoPrune rs) : Matched (Run.after (step E cfg) {} rs) := by
  have hgood := Run.invariant_of (step E cfg) (I := fun s => Indexed s.log ∧ Matched s)
    (Q := fun r => ∀ seconds, r.2 ≠ .prune seconds) (fun s r hr hs => good_step E cfg r hr hs)
    (s := {}) ⟨indexed_nil, matched_empty⟩ hprune
  exact hgood.2

theorem row_after {s : MemoryStore} (hs : Indexed s.log) {rs : List TimedRequest} (hprune : NoPrune rs) {k : Digest}
    {row : CoseReceipt × Int × Nat} (hk : s.statements.lookup k = some row) :
    (Run.after (step E cfg) s rs).statements.lookup k = some row := by
  have hrow := Run.invariant_of (step E cfg) (I := fun s => Indexed s.log ∧ s.statements.lookup k = some row)
    (Q := fun r => ∀ seconds, r.2 ≠ .prune seconds)
    (fun s r hr hs => ⟨indexed_step E cfg hs.1 r, (step_cases E cfg hs.1 r).row_kept E cfg hr hs.2⟩) ⟨hs, hk⟩ hprune
  exact hrow.2

/-- The strings a run hashes for its statements. -/
def hashed (rs : List TimedRequest) : Set Bytes :=
  {x | ∃ r ∈ rs, ∃ statementBytes grade cp, r.2.submission E = some (statementBytes, grade, cp) ∧
    (x = statementBytes ∨ x = (entryHashPreimage E statementBytes).1)}

/-- `cbor2.loads` never returns a tag 18 item for a `Sig_structure`, which is an array. -/
def SigStructureUntagged : Prop := ∀ (protectedBstr payload : Bytes) (v : Cbor),
  E.cborLoads (sigStructure E protectedBstr payload) ≠ some (.tag 18 v)

private theorem preimage_cases (b : Bytes) :
    entryHashPreimage E b = (b, .legacy) ∨
      (∃ p pl, entryHashPreimage E b = (sigStructure E p pl, .sigStructure)) ∧ ∃ v, E.cborLoads b = some (.tag 18 v) := by
  unfold entryHashPreimage
  split
  · rename_i p u pl sig hdecode
    right
    refine ⟨⟨p, pl, rfl⟩, ?_⟩
    unfold decodeCoseSign1 at hdecode
    split at hdecode
    · exact ⟨_, ‹_›⟩
    · exact ⟨_, ‹_›⟩
    · cases hdecode
  · exact .inl rfl

/-- No submission has the envelope hash of a COSE_Sign1 as its entry hash. -/
theorem entryHash_ne_legacy (huntagged : SigStructureUntagged E) {rs : List TimedRequest}
    (hinj : Set.InjOn E.sha256 (hashed E rs)) {b b₀ : Bytes} (hb : b ∈ hashed E rs)
    (hb₀ : (entryHashPreimage E b₀).1 ∈ hashed E rs) (hscheme : (entryHashPreimage E b).2 = .sigStructure) :
    (computeEntryHash E b₀).1 ≠ legacyEntryHash E b := by
  intro hkey
  have hpreimage : (entryHashPreimage E b₀).1 = b := hinj hb₀ hb hkey
  rcases preimage_cases E b with hraw | ⟨-, v, hv⟩
  · rw [hraw] at hscheme
    cases hscheme
  · rcases preimage_cases E b₀ with hraw₀ | ⟨⟨p, pl, hsig⟩, -⟩
    · rw [hraw₀] at hpreimage
      rw [← show b₀ = b from hpreimage, hraw₀] at hscheme
      cases hscheme
    · rw [hsig] at hpreimage
      rw [← hpreimage] at hv
      exact absurd hv (huntagged p pl v)

/-- In a service that started empty no row has the envelope hash of a COSE_Sign1 as its key. -/
theorem legacy_free (huntagged : SigStructureUntagged E) {rs : List TimedRequest}
    (hinj : Set.InjOn E.sha256 (hashed E rs)) {pre : List TimedRequest} (hpre : pre <+: rs) {b : Bytes}
    (hb : b ∈ hashed E rs) (hscheme : (entryHashPreimage E b).2 = .sigStructure) :
    (Run.after (step E cfg) {} pre).statements.lookup (legacyEntryHash E b) = none := by
  cases hrow : (Run.after (step E cfg) {} pre).statements.lookup (legacyEntryHash E b) with
  | none => rfl
  | some row =>
    obtain ⟨e, he, hfiled⟩ := filed_of_cached E cfg pre hrow
    obtain ⟨b₀, grade, cp, hsubmission, hkey⟩ := hfiled.submitted
    obtain ⟨rs₁, rs₂, hsplit, -⟩ := Run.trace_split (step E cfg) he
    have hmem : e.request ∈ rs := hpre.subset (by rw [hsplit]; simp)
    have hb₀ : (entryHashPreimage E b₀).1 ∈ hashed E rs := ⟨e.request, hmem, b₀, grade, cp, hsubmission, .inr rfl⟩
    exact absurd hkey (entryHash_ne_legacy E huntagged hinj hb hb₀ hscheme)

/-- A registration in such a service is known by its entry hash. -/
private theorem entryHash_of_registered (huntagged : SigStructureUntagged E) {rs : List TimedRequest}
    (hinj : Set.InjOn E.sha256 (hashed E rs)) {e : ServiceEvent} (he : e ∈ Run.trace (step E cfg) {} rs) {b : Bytes}
    {grade : Option String} {cp : Option Checkpoint} (hsubmission : e.request.2.submission E = some (b, grade, cp))
    {result : StatementRegistration} (hreply : e.reply = .ok (.registered result)) :
    ∃ sub, prepare E cfg.payloadPolicy b = .ok sub ∧ result.entryHash = sub.entryHash := by
  obtain ⟨pre, post, hsplit, hbefore, -⟩ := Run.trace_split (step E cfg) he
  have hpre : pre <+: rs := ⟨e.request :: post, hsplit.symm⟩
  have hb : b ∈ hashed E rs := ⟨e.request, by rw [hsplit]; simp, b, grade, cp, hsubmission, .inl rfl⟩
  have hstep := event_step E cfg he
  rw [hreply] at hstep
  generalize e.request.2 = request at hstep hsubmission
  generalize e.after = s' at hstep
  cases hstep with
  | registered _ b' grade' cp' _ s₁ hsubmission' hregister =>
    obtain ⟨rfl, rfl, rfl⟩ : b = b' ∧ grade = grade' ∧ cp = cp' := by
      simpa using hsubmission.symm.trans hsubmission'
    cases hregister with
    | cached sub found scheme hprep hfound =>
      refine ⟨sub, hprep, ?_⟩
      have hsub := prepare_ok E hprep
      rw [cachedResult]
      by_cases hlegacy : scheme = .legacy
      · rw [if_pos hlegacy]
        cases hscheme : sub.scheme with
        | legacy => exact hsub.legacy_eq hscheme
        | sigStructure =>
          -- the legacy lookup misses
          have hsig : (entryHashPreimage E b).2 = .sigStructure := by rw [← hsub.preimage, hscheme]
          have hmiss := legacy_free E cfg huntagged hinj hpre hb hsig
          have hrow := cachedStatement_some E hsub hfound
          rw [if_pos hlegacy, hsub.legacyHash, hbefore] at hrow
          rw [legacyEntryHash, hrow] at hmiss
          cases hmiss
      · rw [if_neg hlegacy]
    | fresh sub s₂ status g hprep hmiss hsame => exact ⟨sub, hprep, rfl⟩

/-- A registration that returned finds its row again in every later state. -/
theorem found_later (huntagged : SigStructureUntagged E) {rs : List TimedRequest} (hprune : NoPrune rs)
    (hinj : Set.InjOn E.sha256 (hashed E rs)) {e : ServiceEvent} (he : e ∈ Run.trace (step E cfg) {} rs) {b : Bytes}
    {grade : Option String} {cp : Option Checkpoint} (hsubmission : e.request.2.submission E = some (b, grade, cp))
    {result : StatementRegistration} (hreply : e.reply = .ok (.registered result)) {later : List TimedRequest}
    (hlater : NoPrune later) :
    ∃ sub, prepare E cfg.payloadPolicy b = .ok sub ∧ result.entryHash = sub.entryHash ∧
      (Run.after (step E cfg) e.after later).statements.lookup sub.entryHash = some result.row := by
  obtain ⟨sub, hprep, hkey⟩ := entryHash_of_registered E cfg huntagged hinj he hsubmission hreply
  have hindexed : Indexed e.after.log := by
    obtain ⟨pre, post, -, hbefore, -, hafter⟩ := Run.trace_split (step E cfg) he
    rw [hafter, hbefore]
    exact indexed_step E cfg (indexed_after E cfg indexed_nil pre) e.request
  have hcached : e.after.statements.lookup result.entryHash = some result.row := by
    have hstep := event_step E cfg he
    have hprune' := hprune e.request (by
      obtain ⟨pre, post, hsplit, -⟩ := Run.trace_split (step E cfg) he
      rw [hsplit]
      simp)
    rw [hreply] at hstep
    rcases registered_filed E cfg hstep with ⟨hrow, -⟩ | hfiled
    · exact hstep.row_kept E cfg hprune' hrow
    · exact hfiled.cached
  refine ⟨sub, hprep, hkey, ?_⟩
  rw [← hkey]
  exact row_after E cfg hindexed hlater hcached

/-- What is cached under the entry hash is found first. -/
theorem cachedStatement_of_row {s : MemoryStore} {sub : Submission} {row : CoseReceipt × Int × Nat}
    (hrow : s.statements.lookup sub.entryHash = some row) : cachedStatement s sub = (some row, sub.scheme) := by
  simp only [cachedStatement, hrow]

/-- The key that the answer names is the entry hash. -/
theorem entryHash_cachedResult {statementBytes : Bytes} {sub : Submission} (hprep : Prepared E statementBytes sub)
    (s : MemoryStore) (row : CoseReceipt × Int × Nat) (cp : Option Checkpoint) :
    (cachedResult s sub row sub.scheme cp).entryHash = sub.entryHash := by
  rw [cachedResult]
  by_cases hlegacy : sub.scheme = .legacy
  · rw [if_pos hlegacy]
    exact hprep.legacy_eq hlegacy
  · rw [if_neg hlegacy]

/-- Each signing act has one entry, and is answered with its receipt. -/
theorem registered_once (huntagged : SigStructureUntagged E) (rs : List TimedRequest) (hprune : NoPrune rs)
    (hinj : Set.InjOn E.sha256 (hashed E rs)) :
    Matched (Run.after (step E cfg) {} rs) ∧
    ∀ e ∈ Run.trace (step E cfg) {} rs, ∀ b grade cp result, e.request.2.submission E = some (b, grade, cp) →
      e.reply = .ok (.registered result) → ∀ later, NoPrune later → ∀ b',
      (b' = b ∨ SameAct E b b' ∧ b'.length ≤ maxStatementBytes) → ∀ now grade' cp',
      let s := Run.after (step E cfg) e.after later
      ∃ result', (registerSignedStatementFull E cfg now b' grade' cp').run MemoryStore.exec s = (.ok result', s) ∧
        result'.receipt = result.receipt ∧ result'.entryHash = result.entryHash ∧
        result'.leafIndex = result.leafIndex ∧ result'.treeSize = result.treeSize := by
  refine ⟨matched_after E cfg hprune, ?_⟩
  intro e he b grade cp result hsubmission hreply later hlater b' hb' now grade' cp' s
  obtain ⟨sub, hprep, hkey, hrow⟩ := found_later E cfg huntagged hprune hinj he hsubmission hreply hlater
  -- the bytes and their twins look it up first
  obtain ⟨sub', hprep', hentry⟩ : ∃ sub', prepare E cfg.payloadPolicy b' = .ok sub' ∧ sub'.entryHash = sub.entryHash := by
    rcases hb' with rfl | ⟨hact, hsize⟩
    · exact ⟨sub, hprep, rfl⟩
    · obtain ⟨sub', hprep', hentry, -⟩ := prepare_twin E hact hsize hprep
      exact ⟨sub', hprep', hentry⟩
  rw [← hentry] at hrow
  have hfound := cachedStatement_of_row hrow
  refine ⟨_, register_cached_run E cfg hprep' hfound now grade' cp', rfl, ?_, rfl, rfl⟩
  rw [entryHash_cachedResult E (prepare_ok E hprep'), hkey, hentry]

/-! ### Three twins -/

private theorem untagged_refActEnv : SigStructureUntagged refActEnv := by
  intro p payload v h
  rw [cborLoads_refActEnv, List.lookup_eq_some_iff] at h
  obtain ⟨l₁, l₂, hl, -⟩ := h
  -- a tagged item starts with 210, the array of a `Sig_structure` with 132
  have hmem : (sigStructure refActEnv p payload, Cbor.tag 18 v) ∈ refActs := by
    rw [hl]
    simp
  have hhead : (sigStructure refActEnv p payload).head? = some 132 := rfl
  simp only [refActs, List.mem_cons, Prod.mk.injEq, List.not_mem_nil, or_false] at hmem
  rcases hmem with ⟨h, -⟩ | ⟨h, -⟩ | ⟨h, -⟩ | ⟨-, h⟩
  · rw [h] at hhead
    cases hhead
  · rw [h] at hhead
    cases hhead
  · rw [h] at hhead
    cases hhead
  · cases h

private theorem injOn_refActEnv (clock : Nat → Datetime) :
    Set.InjOn refActEnv.sha256 (hashed refActEnv [(clock, .register (refEnvelope [160]))]) := by
  refine injOn_of_nodup refHashes_nodup ?_
  rintro x ⟨r, hr, b, grade, cp, hsubmission, hx⟩
  obtain rfl := List.mem_singleton.1 hr
  obtain ⟨rfl, -, -⟩ : refEnvelope [160] = b ∧ none = grade ∧ none = cp := by
    simpa [Request.submission] using hsubmission
  obtain ⟨u, hdecode⟩ := decode_refEnvelope (.inr (.inl rfl))
  rcases hx with rfl | rfl
  · simp
  · simp [entryHashPreimage, hdecode]

private theorem register_refEnvelope (clock : Nat → Datetime) :
    ∃ result s, step refActEnv {} {} (clock, .register (refEnvelope [160])) = (.ok (.registered result), s) := by
  obtain ⟨u, hdecode⟩ := decode_refEnvelope (.inr (.inl rfl))
  have hsize : (refEnvelope [160]).length ≤ maxStatementBytes := by
    rw [length_refEnvelope, maxStatementBytes]
    simp
  obtain ⟨sub, hprep, hfields, -⟩ := prepare_statement refActEnv ({} : Config).payloadPolicy hdecode hsize rfl
  exact ⟨_, _, step_register_fresh refActEnv {} indexed_nil hprep hfields
    (cachedStatement_none.2 ⟨AList.lookup_empty _, AList.lookup_empty _⟩) clock⟩

/-- A statement and a twin with another unprotected header. -/
theorem registered_once_sample :
    let clock : Nat → Datetime := fun i => ⟨i, 0⟩
    ∃ result s, step refActEnv {} {} (clock, .register (refEnvelope [160])) = (.ok (.registered result), s) ∧
      ∃ result', (registerSignedStatementFull refActEnv {} clock (refEnvelope [161, 97, 120, 1]) none none).run
        MemoryStore.exec s = (.ok result', s) ∧ result'.receipt = result.receipt := by
  intro clock
  obtain ⟨result, s, hstep⟩ := register_refEnvelope clock
  refine ⟨result, s, hstep, ?_⟩
  obtain ⟨u, hdecode⟩ := decode_refEnvelope (.inr (.inl rfl))
  obtain ⟨v, hdecode'⟩ := decode_refEnvelope (.inr (.inr rfl))
  have hsize : (refEnvelope [161, 97, 120, 1]).length ≤ maxStatementBytes := by
    rw [length_refEnvelope, maxStatementBytes]
    simp
  have hprune : NoPrune [(clock, .register (refEnvelope [160]))] := by
    intro r hr seconds
    obtain rfl := List.mem_singleton.1 hr
    intro heq
    cases heq
  obtain ⟨-, hevery⟩ := registered_once refActEnv {} untagged_refActEnv _ hprune (injOn_refActEnv clock)
  have hact : SameAct refActEnv (refEnvelope [160]) (refEnvelope [161, 97, 120, 1]) :=
    ⟨_, _, u, v, _, _, hdecode, hdecode'⟩
  have hmem : (⟨{}, (clock, .register (refEnvelope [160])), .ok (.registered result), s⟩ : ServiceEvent) ∈
      Run.trace (step refActEnv {}) {} [(clock, .register (refEnvelope [160]))] := by
    rw [Run.trace, hstep]
    exact List.mem_cons_self
  obtain ⟨result', hrun, hreceipt, -⟩ := hevery _ hmem (refEnvelope [160]) none none result rfl rfl []
    (fun _ h => absurd h List.not_mem_nil) _ (.inr ⟨hact, hsize⟩) clock none none
  exact ⟨result', hrun, hreceipt⟩

/-- A twin of 64 KiB is refused, though its signing act is registered. -/
theorem oversized_twin_refused :
    let clock : Nat → Datetime := fun i => ⟨i, 0⟩
    let rs : List TimedRequest := [(clock, .register (refEnvelope [160]))]
    SigStructureUntagged refActEnv ∧ NoPrune rs ∧ Set.InjOn refActEnv.sha256 (hashed refActEnv rs) ∧
    SameAct refActEnv (refEnvelope [160]) (refEnvelope refOversizedHeader) ∧
    ∃ result s, step refActEnv {} {} (clock, .register (refEnvelope [160])) = (.ok (.registered result), s) ∧
      ∃ message, (registerSignedStatementFull refActEnv {} clock (refEnvelope refOversizedHeader) none none).run
        MemoryStore.exec s = (.error (.valueError message), s) := by
  intro clock rs
  obtain ⟨u, hdecode⟩ := decode_refEnvelope (.inr (.inl rfl))
  obtain ⟨v, hdecode'⟩ := decode_refEnvelope (.inl rfl)
  obtain ⟨result, s, hstep⟩ := register_refEnvelope clock
  refine ⟨untagged_refActEnv, ?_, injOn_refActEnv clock, ⟨_, _, u, v, _, _, hdecode, hdecode'⟩, result, s, hstep, ?_⟩
  · intro r hr seconds
    obtain rfl := List.mem_singleton.1 hr
    intro heq
    cases heq
  · have hsize : maxStatementBytes < (refEnvelope refOversizedHeader).length := by
      rw [length_refEnvelope, length_refOversizedHeader, maxStatementBytes]
      omega
    obtain ⟨message, hprep⟩ : ∃ message, prepare refActEnv ({} : Config).payloadPolicy
        (refEnvelope refOversizedHeader) = .error (.valueError message) := by
      rw [prepare, if_pos hsize]
      exact ⟨_, rfl⟩
    refine ⟨message, ?_⟩
    rw [registerSignedStatementFull, hprep]
    rfl

end CapsuleAnchor

import CapsuleAnchor.Conformance
import CapsuleAnchor.Runs

/-!
# The watcher (`cross_witness_conformance/watcher.py`)

Every run checks one checkpoint, compares it with the claims in the state file, and leaves its own claims there if no check
failed.  The state file is what `json.loads` finds in it: the dict that `json.dumps` wrote.

`json.dumps` does not write a `ConsistencyProof`, so a checkpoint with one is never remembered: the run raises
(`dumpsClaims_eq_none_iff`).  `watcher_remembers_iff`: a sequence of runs returns every report, remembers every good
checkpoint and follows one chain exactly when no checkpoint with a proof passes its checks, and the witness answers with what
the tie-back reads.
-/

namespace CapsuleAnchor

/-- The claims in the state file. -/
abbrev StateFile := List (String × Scalar)

structure WatchInput where
  checkpointBytes : Bytes
  allowlist : SubmitterAllowlist
  expectedGrade : Option String
  get : Getter

variable (E : Env) (texts : Texts) (W : Wire) (V : Verifier) (expectedLogId : String)

/-- One value of `json.dumps`: it refuses an object, and an integer with too many digits. -/
def dumpsClaim : ClaimValue → Option Scalar
  | .scalar (.int i) => if (toString i.natAbs).length ≤ 4300 then some (.int i) else none
  | .scalar v => some v
  | .proof _ => none

/-- `json.dumps` of a dict. -/
def dumpsClaims (claims : List (String × ClaimValue)) : Option StateFile :=
  claims.mapM fun (key, value) => (dumpsClaim value).map fun v => (key, v)

/-- The comparison with the state file. -/
def checkContinuity (previous : Option StateFile) (cp : Checkpoint) : Option ConformanceReport :=
  match previous with
  | none => some ⟨[⟨"chain_continuity", .unknown, "no previous checkpoint on record for this log_id yet -- this is the first " ++
      "one seen by this watcher; continuity will be checked against it on the NEXT run"⟩], none⟩
  | some previous =>
    if previous.lookup "log_id" = some (.str cp.logId) then checkChainContinuity E previous cp
    else some ⟨[⟨"chain_continuity", .unknown, "stored previous checkpoint is for log_id " ++
      ((previous.lookup "log_id").map (reprScalar E)).getD "None" ++ ", this one is " ++ E.repr cp.logId ++
      " -- not comparable, treating this as first-seen"⟩], none⟩

/-- `run`: the report, or `none` when it raises, and the state file. -/
def watch (file : Option StateFile) (i : WatchInput) : Option ConformanceReport × Option StateFile :=
  match checkCheckpointWire E texts W i.allowlist expectedLogId i.expectedGrade i.checkpointBytes with
  | none => (none, file)
  | some wire =>
    match wire.claims with
    | none => (some wire, file)
    | some cp =>
      match checkWitnessTieBack E texts V cp i.get with
      | none => (none, file)
      | some tieBack =>
        match checkContinuity E file cp with
        | none => (none, file)
        | some continuity =>
          let report := (wire.merge tieBack).merge continuity
          if report.hasFailure then (some report, file)
          else
            match dumpsClaims (claimsDict cp) with
            | none => (none, file)
            | some written => (some report, some written)

abbrev WatchEvent := Run.Event (Option StateFile) WatchInput (Option ConformanceReport)

/-! ### What is to hold -/

/-- The file holds the claims of the checkpoint. -/
def Remembers (file : Option StateFile) (cp : Checkpoint) : Prop :=
  ∃ claims, file = some claims ∧ claims.map (fun (key, v) => (key, ClaimValue.scalar v)) = claimsDict cp

/-- The checkpoint of a run without a failure. -/
def goodCheckpoint (e : WatchEvent) : Option Checkpoint :=
  match e.reply with
  | none => none
  | some report => if report.hasFailure then none else report.claims

def Follows (first second : Checkpoint) : Prop :=
  second.prevSize = first.mmrSize ∧ second.prevRoot = some first.root ∧ first.mmrSize < second.mmrSize

structure Watched (es : List WatchEvent) : Prop where
  returns : ∀ e ∈ es, ∃ report, e.reply = some report
  remembered : ∀ e ∈ es, ∀ report, e.reply = some report → report.hasFailure = false →
    ∃ cp, report.claims = some cp ∧ Remembers e.after cp
  chained : (es.filterMap goodCheckpoint).IsChain Follows

/-- The bytes are an accepted checkpoint of the expected log. -/
def AcceptedAs (i : WatchInput) (cp : Checkpoint) : Prop :=
  parseDeclared E texts W i.allowlist expectedLogId i.checkpointBytes = .ok cp ∧ cp.logId = expectedLogId

/-- The grade is the expected one, the witness serves a receipt that verifies, and the checkpoint goes on from the one in the
state file. -/
structure PassesAll (file : Option StateFile) (i : WatchInput) (cp : Checkpoint) : Prop where
  grade : ∀ grade, i.expectedGrade = some grade → cp.grade = some grade
  witnessed : ∃ entryHash receipt pem result, Served E V i.get cp entryHash receipt pem ∧
    V.verifyReceipt receipt entryHash pem = some result ∧ result.ok = true
  continues : ∀ claims, file = some claims →
    claims.lookup "mmr_size" = some (.int cp.prevSize) ∧ claims.lookup "root" = some (.str (prevRootText cp))

/-- The witness has nothing, or serves no key, or serves what can be checked; and a checkpoint with a proof does not pass. -/
def WatchReturns (file : Option StateFile) (i : WatchInput) (cp : Checkpoint) : Prop :=
  (∃ report, TieBackEnds E V i.get cp report) ∧ (cp.consistencyProof.join ≠ none → ¬ PassesAll E V file i cp)

/-! ### The state file -/

private theorem dumpsClaim_some {value : ClaimValue} {v : Scalar} (h : dumpsClaim value = some v) : value = .scalar v := by
  unfold dumpsClaim at h
  split at h
  · split at h
    · rw [Option.some.inj h]
    · cases h
  · rw [Option.some.inj h]
  · cases h

/-- What is written is what the dict holds. -/
theorem dumpsClaims_some {claims : List (String × ClaimValue)} {written : StateFile} (h : dumpsClaims claims = some written) :
    written.map (fun (key, v) => (key, ClaimValue.scalar v)) = claims := by
  induction claims generalizing written with
  | nil =>
    obtain rfl := Option.some.inj h
    rfl
  | cons kv claims ih =>
    obtain ⟨key, value⟩ := kv
    simp only [dumpsClaims, List.mapM_cons, Option.bind_eq_bind, Option.bind_eq_some_iff, Option.map_eq_some_iff,
      Option.pure_def, Option.some.injEq] at h
    obtain ⟨_, ⟨v, hv, rfl⟩, rest, hrest, rfl⟩ := h
    obtain rfl := dumpsClaim_some hv
    rw [List.map_cons, ih hrest]

private theorem dumpsClaims_isSome {claims : List (String × ClaimValue)} :
    (dumpsClaims claims).isSome ↔ ∀ kv ∈ claims, (dumpsClaim kv.2).isSome := by
  induction claims with
  | nil => exact iff_of_true rfl (by simp)
  | cons kv claims ih =>
    rw [List.forall_mem_cons, ← ih]
    simp only [dumpsClaims, List.mapM_cons, Option.bind_eq_bind, Option.pure_def]
    cases dumpsClaim kv.2 with
    | none => simp
    | some v =>
      simp only [Option.map_some, Option.bind_some, Option.isSome_some, true_and]
      cases claims.mapM (fun (key, value) => (dumpsClaim value).map fun v => (key, v)) <;> rfl

/-- The claims of a checkpoint are written exactly when it carries no proof. -/
theorem dumpsClaims_eq_none_iff {cp : Checkpoint} (hdecimal : cp.Decimal) :
    dumpsClaims (claimsDict cp) = none ↔ cp.consistencyProof.join ≠ none := by
  have hprev : (toString cp.prevSize).length ≤ 4300 :=
    le_trans (length_toString_mono (Nat.le_of_lt cp.prevSize_lt)) hdecimal.mmrSize
  have hv : (dumpsClaim (.scalar (.int cp.v))).isSome := by
    rw [dumpsClaim, if_pos hdecimal.v]
    rfl
  have hmmr : (dumpsClaim (.scalar (.int cp.mmrSize))).isSome := by
    rw [dumpsClaim, Int.natAbs_natCast, if_pos hdecimal.mmrSize]
    rfl
  have hprev : (dumpsClaim (.scalar (.int cp.prevSize))).isSome := by
    rw [dumpsClaim, Int.natAbs_natCast, if_pos hprev]
    rfl
  have hgrade : (dumpsClaim (.scalar (.optStr cp.grade))).isSome := by
    cases cp.grade <;> rfl
  have hstr : ∀ text, (dumpsClaim (.scalar (.str text))).isSome := fun _ => rfl
  have hsome : (dumpsClaims (claimsDict cp)).isSome ↔ cp.consistencyProof.join = none := by
    rw [dumpsClaims_isSome]
    simp only [claimsDict, List.forall_mem_append, List.forall_mem_cons, hv, hmmr, hprev, hgrade, hstr, List.not_mem_nil,
      true_and, false_implies, implies_true]
    cases cp.consistencyProof with
    | none => simp
    | some proof =>
      cases proof with
      | none => exact iff_of_true (List.forall_mem_singleton.2 rfl) rfl
      | some proof =>
        refine iff_of_false ?_ nofun
        rw [List.forall_mem_singleton]
        exact nofun
  rw [← Option.not_isSome_iff_eq_none, hsome]

private theorem lookup_scalars (claims : StateFile) (key : String) :
    (claims.map fun (key, v) => (key, ClaimValue.scalar v)).lookup key = (claims.lookup key).map .scalar := by
  induction claims with
  | nil => rfl
  | cons kv claims ih =>
    rw [List.map_cons, List.lookup_cons, List.lookup_cons]
    by_cases h : (key == kv.1) = true
    · simp only [h]
      rfl
    · simp only [Bool.not_eq_true] at h
      simp only [h, ih]

/-- What a run reads of the state file. -/
private theorem lookup_remembered {claims : StateFile} {cp : Checkpoint} (h : Remembers (some claims) cp) :
    claims.lookup "log_id" = some (.str cp.logId) ∧ claims.lookup "mmr_size" = some (.int cp.mmrSize) ∧
      claims.lookup "root" = some (.str cp.root.hex) := by
  obtain ⟨_, hclaims, hdict⟩ := h
  obtain rfl := Option.some.inj hclaims
  have hlookup : ∀ key v, (claimsDict cp).lookup key = some (.scalar v) → claims.lookup key = some v := by
    intro key v hv
    rw [← hdict, lookup_scalars] at hv
    obtain ⟨v', hv', heq⟩ := Option.map_eq_some_iff.1 hv
    rw [hv', ClaimValue.scalar.inj heq]
  exact ⟨hlookup _ _ rfl, hlookup _ _ rfl, hlookup _ _ rfl⟩

/-! ### One run -/

variable {E texts W V expectedLogId}

private theorem follows_of_lookup {claims : StateFile} {last cp : Checkpoint} (h : Remembers (some claims) last)
    (hsize : claims.lookup "mmr_size" = some (.int cp.prevSize))
    (hroot : claims.lookup "root" = some (.str (prevRootText cp))) : Follows last cp := by
  obtain ⟨-, hlastSize, hlastRoot⟩ := lookup_remembered h
  have hsizes : cp.prevSize = last.mmrSize :=
    Int.ofNat.inj (Scalar.int.inj (Option.some.inj (hsize.symm.trans hlastSize)))
  have hroots : prevRootText cp = last.root.hex := Scalar.str.inj (Option.some.inj (hroot.symm.trans hlastRoot))
  refine ⟨hsizes, ?_, by rw [← hsizes]; exact cp.prevSize_lt⟩
  cases hprev : cp.prevRoot with
  | none =>
    have hlength := last.root.length_hex
    rw [← hroots, prevRootText, hprev] at hlength
    cases hlength
  | some root =>
    rw [prevRootText, hprev] at hroots
    rw [Digest.hex_injective hroots]

/-- A checkpoint goes on from the file exactly when it follows the one that the file holds. -/
theorem continues_iff {file : Option StateFile} {last cp : Checkpoint} (h : Remembers file last) :
    (∀ claims, file = some claims →
      claims.lookup "mmr_size" = some (.int cp.prevSize) ∧ claims.lookup "root" = some (.str (prevRootText cp))) ↔
    Follows last cp := by
  obtain ⟨claims, rfl, hdict⟩ := h
  have hremembers : Remembers (some claims) last := ⟨claims, rfl, hdict⟩
  constructor
  · intro hcontinues
    obtain ⟨hsize, hroot⟩ := hcontinues claims rfl
    exact follows_of_lookup hremembers hsize hroot
  · rintro ⟨hsize, hroot, -⟩ claims' ⟨⟩
    obtain ⟨-, hlastSize, hlastRoot⟩ := lookup_remembered hremembers
    rw [hlastSize, hlastRoot, hsize, prevRootText, hroot]
    exact ⟨rfl, rfl⟩

/-- The comparison with what a run remembered fails unless the checkpoint goes on from it. -/
private theorem continuity_ends {previous : Option StateFile} {cp : Checkpoint}
    (h : ∀ claims, previous = some claims → ∃ last, Remembers (some claims) last ∧ last.logId = cp.logId) :
    ∃ report, checkContinuity E previous cp = some report ∧
      (report.hasFailure = false ↔ ∀ claims, previous = some claims →
        claims.lookup "mmr_size" = some (.int cp.prevSize) ∧ claims.lookup "root" = some (.str (prevRootText cp))) := by
  cases previous with
  | none => exact ⟨_, rfl, iff_of_true rfl (by simp)⟩
  | some claims =>
    obtain ⟨last, hlast, hlog⟩ := h claims rfl
    obtain ⟨hlogId, hsize, hroot⟩ := lookup_remembered hlast
    rw [hlog] at hlogId
    have hgoal : (∀ claims', some claims = some claims' → claims'.lookup "mmr_size" = some (.int cp.prevSize) ∧
        claims'.lookup "root" = some (.str (prevRootText cp))) ↔
        Scalar.int cp.prevSize = .int last.mmrSize ∧ Scalar.str (prevRootText cp) = .str last.root.hex := by
      constructor
      · intro h
        obtain ⟨h₁, h₂⟩ := h claims rfl
        exact ⟨Option.some.inj (h₁.symm.trans hsize), Option.some.inj (h₂.symm.trans hroot)⟩
      · rintro ⟨h₁, h₂⟩ claims' ⟨⟩
        exact ⟨by rw [hsize, h₁], by rw [hroot, h₂]⟩
    rw [hgoal]
    simp only [checkContinuity, checkChainContinuity, hlogId, hsize, hroot, Option.bind_eq_bind,
      Option.bind_some, ne_eq, not_true, if_false]
    by_cases hsizes : Scalar.int cp.prevSize = .int last.mmrSize
    · have hgrew : (last.mmrSize : Int) < cp.mmrSize := by
        have hlt := cp.prevSize_lt
        have heq := Scalar.int.inj hsizes
        omega
      by_cases hroots : Scalar.str (prevRootText cp) = .str last.root.hex
      · simp only [decide_eq_true hsizes, decide_eq_true hroots, decide_eq_true hgrew]
        exact ⟨_, rfl, iff_of_true rfl ⟨hsizes, hroots⟩⟩
      · simp only [decide_eq_false hroots, Bool.and_false, Bool.false_and]
        exact ⟨_, rfl, iff_of_false nofun fun h => hroots h.2⟩
    · simp only [decide_eq_false hsizes, Bool.false_and]
      exact ⟨_, rfl, iff_of_false nofun fun h => hsizes h.1⟩

variable (expectedLogId) in
/-- The state file has the claims of the last good checkpoint, if there was one. -/
private def Known (last : Option Checkpoint) (file : Option StateFile) : Prop :=
  match last with
  | none => file = none
  | some cp => Remembers file cp ∧ cp.logId = expectedLogId

variable (E texts W V expectedLogId) in
/-- The run remembers the checkpoint, which passed its checks. -/
private def Good (file : Option StateFile) (i : WatchInput) (cp : Checkpoint) : Prop :=
  PassesAll E V file i cp ∧ ∃ report written, watch E texts W V expectedLogId file i = (some report, some written) ∧
    report.hasFailure = false ∧ report.claims = some cp ∧ Remembers (some written) cp

variable (E texts W V expectedLogId) in
/-- The run leaves the state file, and reports a failure or nothing. -/
private def Bad (file : Option StateFile) (i : WatchInput) : Prop :=
  ∃ reply, watch E texts W V expectedLogId file i = (reply, file) ∧
    ∀ report, reply = some report → report.hasFailure = true

variable (E texts W V expectedLogId) in
/-- How a run on an accepted checkpoint ends. -/
inductive WatchEnds (file : Option StateFile) (i : WatchInput) (cp : Checkpoint) : Prop
  /-- The witness answers with something else than the tie-back reads. -/
  | unanswered (hanswer : ∀ report, ¬ TieBackEnds E V i.get cp report)
    (hwatch : watch E texts W V expectedLogId file i = (none, file))
  /-- The claims cannot be written. -/
  | unwritten (hends : ∃ report, TieBackEnds E V i.get cp report) (hpasses : PassesAll E V file i cp)
    (hproof : cp.consistencyProof.join ≠ none) (hwatch : watch E texts W V expectedLogId file i = (none, file))
  | failed (hends : ∃ report, TieBackEnds E V i.get cp report) (hpasses : ¬ PassesAll E V file i cp)
    (report : ConformanceReport) (hwatch : watch E texts W V expectedLogId file i = (some report, file))
    (hfails : report.hasFailure = true)
  | remembered (hends : ∃ report, TieBackEnds E V i.get cp report) (hpasses : PassesAll E V file i cp)
    (hproof : cp.consistencyProof.join = none) (report : ConformanceReport) (written : StateFile)
    (hwatch : watch E texts W V expectedLogId file i = (some report, some written)) (hgood : report.hasFailure = false)
    (hclaims : report.claims = some cp) (hremembers : Remembers (some written) cp)

/-- The file holds the claims of the last checkpoint that was remembered. -/
theorem watch_ends (hdigits : JsonDigits W) {last : Option Checkpoint} {file : Option StateFile}
    (hnone : last = none → file = none) (hsome : ∀ cp, last = some cp → Remembers file cp ∧ cp.logId = expectedLogId)
    {i : WatchInput} {cp : Checkpoint} (hi : AcceptedAs E texts W expectedLogId i cp) :
    WatchEnds E texts W V expectedLogId file i cp := by
  obtain ⟨hparse, hlog⟩ := hi
  have hdecimal := decimal_of_accepted hdigits hparse
  obtain ⟨wire, hwire, hclaims, hwireFails⟩ := wire_of_accepted hdigits i.expectedGrade hparse
  obtain ⟨continuity, hcontinuity, hcontinues⟩ : ∃ report, checkContinuity E file cp = some report ∧
      (report.hasFailure = false ↔ ∀ claims, file = some claims →
        claims.lookup "mmr_size" = some (.int cp.prevSize) ∧ claims.lookup "root" = some (.str (prevRootText cp))) := by
    refine continuity_ends ?_
    rintro claims rfl
    cases last with
    | none => cases hnone rfl
    | some last =>
      obtain ⟨hremembers, hlast⟩ := hsome last rfl
      exact ⟨last, hremembers, hlast.trans hlog.symm⟩
  cases htie : checkWitnessTieBack E texts V cp i.get with
  | none =>
    refine .unanswered ?_ (by simp only [watch, hwire, hclaims, htie])
    intro report hends
    have hreturns : (checkWitnessTieBack E texts V cp i.get).isSome := tieBack_returns hends
    rw [htie] at hreturns
    cases hreturns
  | some tieBack =>
    have hends := tieBackEnds htie
    have hfails : ((wire.merge tieBack).merge continuity).hasFailure = false ↔ PassesAll E V file i cp := by
      rw [hasFailure_merge, hasFailure_merge, Bool.or_eq_false_iff, Bool.or_eq_false_iff, hwireFails,
        hends.no_failure_iff, hends.passed_iff, hcontinues]
      constructor
      · rintro ⟨⟨⟨-, hgrade⟩, hwitnessed⟩, hgoesOn⟩
        exact ⟨hgrade, hwitnessed, hgoesOn⟩
      · rintro ⟨hgrade, hwitnessed, hgoesOn⟩
        exact ⟨⟨⟨hlog, hgrade⟩, hwitnessed⟩, hgoesOn⟩
    by_cases hpasses : PassesAll E V file i cp
    · have hgood := hfails.2 hpasses
      cases hdumps : dumpsClaims (claimsDict cp) with
      | none =>
        refine .unwritten ⟨tieBack, hends⟩ hpasses ((dumpsClaims_eq_none_iff hdecimal).1 hdumps) ?_
        simp only [watch, hwire, hclaims, htie, hcontinuity, hgood, Bool.false_eq_true, if_false, hdumps]
      | some written =>
        have hproof : cp.consistencyProof.join = none := by
          by_contra hproof
          rw [(dumpsClaims_eq_none_iff hdecimal).2 hproof] at hdumps
          cases hdumps
        refine .remembered ⟨tieBack, hends⟩ hpasses hproof _ written ?_ hgood hclaims ⟨written, rfl, dumpsClaims_some hdumps⟩
        simp only [watch, hwire, hclaims, htie, hcontinuity, hgood, Bool.false_eq_true, if_false, hdumps]
    · have hbad : ((wire.merge tieBack).merge continuity).hasFailure = true := by
        rw [← Bool.not_eq_false, hfails]
        exact hpasses
      refine .failed ⟨tieBack, hends⟩ hpasses _ ?_ hbad
      simp only [watch, hwire, hclaims, htie, hcontinuity, hbad, if_true]

private theorem watch_step (hdigits : JsonDigits W) {last : Option Checkpoint} {file : Option StateFile}
    (hfile : Known expectedLogId last file) {i : WatchInput} {cp : Checkpoint}
    (hi : AcceptedAs E texts W expectedLogId i cp) :
    ((∃ report, (watch E texts W V expectedLogId file i).1 = some report) ↔ WatchReturns E V file i cp) ∧
      (Good E texts W V expectedLogId file i cp ∨ Bad E texts W V expectedLogId file i) := by
  have hnone : last = none → file = none := by
    rintro rfl
    exact hfile
  have hsome : ∀ cp, last = some cp → Remembers file cp ∧ cp.logId = expectedLogId := by
    rintro cp rfl
    exact hfile
  cases watch_ends (V := V) hdigits hnone hsome hi with
  | unanswered hanswer hwatch =>
    refine ⟨?_, .inr ⟨none, hwatch, nofun⟩⟩
    rw [hwatch]
    refine iff_of_false nofun ?_
    rintro ⟨⟨report, hends⟩, -⟩
    exact hanswer report hends
  | unwritten hends hpasses hproof hwatch =>
    refine ⟨?_, .inr ⟨none, hwatch, nofun⟩⟩
    rw [hwatch]
    exact iff_of_false nofun fun h => h.2 hproof hpasses
  | failed hends hpasses report hwatch hfails =>
    refine ⟨?_, .inr ⟨_, hwatch, ?_⟩⟩
    · rw [hwatch]
      exact iff_of_true ⟨_, rfl⟩ ⟨hends, fun _ => hpasses⟩
    · rintro report ⟨⟩
      exact hfails
  | remembered hends hpasses hproof report written hwatch hgood hclaims hremembers =>
    refine ⟨?_, .inl ⟨hpasses, report, written, hwatch, hgood, hclaims, hremembers⟩⟩
    rw [hwatch]
    exact iff_of_true ⟨_, rfl⟩ ⟨hends, fun h => absurd hproof h⟩

/-! ### A sequence of runs -/

private theorem goodCheckpoint_good {file file' : Option StateFile} {i : WatchInput} {cp : Checkpoint}
    {report : ConformanceReport} (hgood : report.hasFailure = false) (hclaims : report.claims = some cp) :
    goodCheckpoint ⟨file, i, some report, file'⟩ = some cp := by
  simp only [goodCheckpoint, hgood, Bool.false_eq_true, if_false, hclaims]

private theorem goodCheckpoint_bad {file file' : Option StateFile} {i : WatchInput} {reply : Option ConformanceReport}
    (h : ∀ report, reply = some report → report.hasFailure = true) : goodCheckpoint ⟨file, i, reply, file'⟩ = none := by
  cases reply with
  | none => rfl
  | some report => simp only [goodCheckpoint, h report rfl, if_true]

/-- The good checkpoints continue the one that the state file remembers. -/
private theorem watched_run (hdigits : JsonDigits W) {is : List WatchInput}
    (his : ∀ i ∈ is, ∃ cp, AcceptedAs E texts W expectedLogId i cp) {last : Option Checkpoint} {file : Option StateFile}
    (hfile : Known expectedLogId last file) :
    let es := Run.trace (watch E texts W V expectedLogId) file is
    (last.toList ++ es.filterMap goodCheckpoint).IsChain Follows ∧
      (∀ e ∈ es, ∀ report, e.reply = some report → report.hasFailure = false →
        ∃ cp, report.claims = some cp ∧ Remembers e.after cp) ∧
      ∀ e ∈ es, ∀ cp, AcceptedAs E texts W expectedLogId e.request cp →
        ((∃ report, e.reply = some report) ↔ WatchReturns E V e.before e.request cp) := by
  induction is generalizing last file with
  | nil =>
    refine ⟨?_, by simp [Run.trace], by simp [Run.trace]⟩
    cases last with
    | none => exact .nil
    | some cp => exact .singleton cp
  | cons i is ih =>
    intro es
    obtain ⟨cp, hi⟩ := his i List.mem_cons_self
    have hrest : ∀ j ∈ is, ∃ cp, AcceptedAs E texts W expectedLogId j cp := fun j hj => his j (List.mem_cons_of_mem i hj)
    obtain ⟨hreturns, hends⟩ := watch_step (V := V) hdigits hfile hi
    have hfirst : ∀ cp', AcceptedAs E texts W expectedLogId i cp' →
        ((∃ report, (watch E texts W V expectedLogId file i).1 = some report) ↔ WatchReturns E V file i cp') := by
      intro cp' hi'
      obtain rfl := Except.ok.inj (hi.1.symm.trans hi'.1)
      exact hreturns
    rcases hends with ⟨hpasses, report, written, hwatch, hgood, hclaims, hremembers⟩ | ⟨reply, hwatch, hbad⟩
    · have hnext : Known expectedLogId (some cp) (some written) := ⟨hremembers, hi.2⟩
      obtain ⟨hchain, hremembered, hlater⟩ := ih hrest hnext
      rw [hwatch] at hfirst
      simp only [es, Run.trace, hwatch, List.forall_mem_cons]
      refine ⟨?_, ⟨?_, hremembered⟩, hfirst, hlater⟩
      · rw [List.filterMap_cons_some (goodCheckpoint_good hgood hclaims)]
        cases last with
        | none => exact hchain
        | some last =>
          obtain ⟨claims, rfl, -⟩ := hfile.1
          obtain ⟨hsize, hroot⟩ := hpasses.continues claims rfl
          exact .cons_cons (follows_of_lookup hfile.1 hsize hroot) hchain
      · rintro report' ⟨⟩ -
        exact ⟨cp, hclaims, hremembers⟩
    · obtain ⟨hchain, hremembered, hlater⟩ := ih hrest hfile
      rw [hwatch] at hfirst
      simp only [es, Run.trace, hwatch, List.forall_mem_cons]
      refine ⟨?_, ⟨?_, hremembered⟩, hfirst, hlater⟩
      · rwa [List.filterMap_cons_none (goodCheckpoint_bad hbad)]
      · intro report' hreport hgood
        rw [hbad report' hreport] at hgood
        cases hgood

/-- For every sequence of runs on accepted checkpoints of one log: every run reports, remembers its checkpoint unless a check
failed, and the remembered checkpoints are one chain, exactly when the witness always answers with what the tie-back reads and
no checkpoint with a proof passes its checks. -/
theorem watcher_remembers_iff (hdigits : JsonDigits W) {is : List WatchInput}
    (his : ∀ i ∈ is, ∃ cp, AcceptedAs E texts W expectedLogId i cp) :
    Watched (Run.trace (watch E texts W V expectedLogId) none is) ↔
      ∀ e ∈ Run.trace (watch E texts W V expectedLogId) none is, ∀ cp,
        AcceptedAs E texts W expectedLogId e.request cp → WatchReturns E V e.before e.request cp := by
  have hstart : Known expectedLogId none none := rfl
  obtain ⟨hchain, hremembered, hreturns⟩ := watched_run (V := V) hdigits his hstart
  constructor
  · intro h e he cp hcp
    exact (hreturns e he cp hcp).1 (h.returns e he)
  · intro h
    refine ⟨?_, hremembered, hchain⟩
    intro e he
    obtain ⟨pre, post, hrun, -⟩ := Run.trace_split _ he
    obtain ⟨cp, hcp⟩ := his e.request (by rw [hrun]; simp)
    exact (hreturns e he cp hcp).2 (h e he cp hcp)

/-! ### A checkpoint with a proof, and one without -/

private def watchedPeak : Digest := filledDigest 1

private def watchedKid : Bytes := List.replicate 32 5

private def watchedHeader : Cbor :=
  .map [(.int 1, .int (-8)), (.int 3, .text cllCheckpointContentType), (.int 4, .bytes watchedKid),
    (.int 15, .map [(.int 1, .text "log"), (.int 2, .text "log#7")])]

private def watchedProof : Cbor :=
  .map [(.text "size_a", .int 4), (.text "size_b", .int 7), (.text "old_peaks", .array [.bytes watchedPeak.bytes]),
    (.text "witness", .array [.array []]), (.text "new_peaks", .array [.bytes watchedPeak.bytes])]

private def watchedClaims (proof : Bool) : Cbor :=
  .map ([(.text "kind", .text wireKind), (.text "log_size", .int 7), (.text "prev_size", .int 4),
    (.text "commitment", .bytes (cborEncode (.array [.bytes watchedPeak.bytes]))),
    (.text "issued_at", .text "2026-08-27T00:00:00Z")] ++ if proof then [(.text "consistency_proof", watchedProof)] else [])

private def watchedItems (proof : Bool) : List Cbor :=
  [.bytes (cborEncode watchedHeader), .map [], .bytes (cborEncode (watchedClaims proof)), .bytes (List.replicate 64 2)]

def watchedBody (proof : Bool) : Bytes := cborEncode (.tag 18 (.array (watchedItems proof)))

abbrev watchedEnv : Env :=
  refEnv [(cborEncode watchedHeader, watchedHeader), (cborEncode (watchedClaims false), watchedClaims false),
    (cborEncode (watchedClaims true), watchedClaims true),
    (cborEncode (.array [.bytes watchedPeak.bytes]), .array [.bytes watchedPeak.bytes])] [] fun _ _ _ _ _ => false

/-- No digest is a signed statement there. -/
theorem watchedEnv_cborLoads {b : Bytes} (h : b.length = 32) : watchedEnv.cborLoads b = none := by
  refine List.lookup_eq_none_iff.2 ?_
  intro entry hentry
  have hlength : entry.1.length ≠ 32 := by
    revert entry
    decide +kernel
  rw [bne_iff_ne]
  rintro rfl
  exact hlength h

def watchedTexts : Texts := ⟨fun _ => "", fun _ => "", fun _ => "", fun _ => "", fun _ => ""⟩

def watchedWire : Wire where
  strictDecode b :=
    if b = watchedBody true then .ok (.array (watchedItems true))
    else if b = watchedBody false then .ok (.array (watchedItems false)) else .error "not CBOR"
  parseSignedStatement b key :=
    if b = watchedBody true then some ⟨key = watchedKid, some "log", some "log#7", some (cborEncode (watchedClaims true))⟩
    else if b = watchedBody false then
      some ⟨key = watchedKid, some "log", some "log#7", some (cborEncode (watchedClaims false))⟩
    else none
  keyError _ := none
  ed25519Verify _ _ _ := false
  jsonLoads _ := .error .jsonDecodeError
  otherTruthy := true

def watchedCheckpoint (proof : Option MmrConsistencyProof) : Checkpoint where
  v := 1
  kind := "mmr_checkpoint"
  logId := "log"
  mmrSize := 7
  root := watchedPeak
  prevSize := 4
  prevRoot := none
  keyId := bytesHex watchedKid
  timestamp := "2026-08-27T00:00:00Z"
  grade := none
  consistencyProof := some proof
  prevSize_lt := four_lt_seven

def openAllowlist : SubmitterAllowlist := ⟨[], by decide⟩

/-- An honest witness. -/
def watchedInput (proof : Option MmrConsistencyProof) (receiptB64 : String) : WatchInput where
  checkpointBytes := watchedBody proof.isSome
  allowlist := openAllowlist
  expectedGrade := none
  get := refWitness (checkpointEntry watchedEnv (watchedCheckpoint proof)) receiptB64

private def watchedVerifier (proof : Option MmrConsistencyProof) (receipt : Bytes) (receiptB64 : String) : Verifier :=
  refVerifier (checkpointEntry watchedEnv (watchedCheckpoint proof)) receipt receiptB64

theorem watched_accepted {proof : Option MmrConsistencyProof}
    (h : proof = none ∨ proof = some ⟨4, 7, [watchedPeak], [[]], [watchedPeak]⟩) (receiptB64 : String) :
    AcceptedAs watchedEnv watchedTexts watchedWire "log" (watchedInput proof receiptB64) (watchedCheckpoint proof) := by
  have hparse : parseAndVerifyCheckpointCose watchedEnv watchedTexts watchedWire (watchedBody proof.isSome)
      (some openAllowlist) = .ok (watchedCheckpoint proof) := by
    rcases h with rfl | rfl <;> decide +kernel
  exact ⟨hparse, rfl⟩

theorem watched_digits : JsonDigits watchedWire := by
  intro body obj key i h
  cases h

private theorem watched_served (proof : Option MmrConsistencyProof) (receipt : Bytes) (receiptB64 : String) :
    ∃ entryHash pem result, Served watchedEnv (watchedVerifier proof receipt receiptB64) (watchedInput proof receiptB64).get
      (watchedCheckpoint proof) entryHash receipt pem ∧
      (watchedVerifier proof receipt receiptB64).verifyReceipt receipt entryHash pem = some result ∧ result.ok = true :=
  ⟨_, _, _, refWitness_served _ _ _ _ _, verifyReceipt_refVerifier _ _ _, rfl⟩

/-- A checkpoint with a consistency proof that passes every check. -/
theorem watcher_raises_on_proof : ¬ ∀ (E : Env) (texts : Texts) (W : Wire) (V : Verifier) (expectedLogId : String)
    (is : List WatchInput), JsonDigits W → (∀ i ∈ is, ∃ cp, AcceptedAs E texts W expectedLogId i cp) →
    Watched (Run.trace (watch E texts W V expectedLogId) none is) := by
  intro h
  obtain ⟨proof, hproof⟩ : ∃ proof, proof = some (⟨4, 7, [watchedPeak], [[]], [watchedPeak]⟩ : MmrConsistencyProof) := ⟨_, rfl⟩
  have haccepted := watched_accepted (.inr hproof) "cmVjZWlwdA=="
  have his : ∀ i ∈ [watchedInput proof "cmVjZWlwdA=="], ∃ cp, AcceptedAs watchedEnv watchedTexts watchedWire "log" i cp :=
    List.forall_mem_singleton.2 ⟨_, haccepted⟩
  have hwatched := h watchedEnv watchedTexts watchedWire (watchedVerifier proof (ascii "receipt") "cmVjZWlwdA==") "log" _
    watched_digits his
  have hreturns := hwatched.returns _ List.mem_cons_self
  have hstart : Known "log" none none := rfl
  obtain ⟨-, hpasses⟩ := (watch_step watched_digits hstart haccepted).1.1 hreturns
  refine hpasses ?_ ⟨nofun, ?_, nofun⟩
  · rw [hproof]
    exact nofun
  · obtain ⟨entryHash, pem, result, hserved⟩ := watched_served proof (ascii "receipt") "cmVjZWlwdA=="
    exact ⟨entryHash, _, pem, result, hserved⟩

/-- The same without a proof. -/
theorem watcher_remembers_iff_sample :
    Watched (Run.trace (watch watchedEnv watchedTexts watchedWire (watchedVerifier none (ascii "receipt") "cmVjZWlwdA==") "log")
      none [watchedInput none "cmVjZWlwdA=="]) := by
  have haccepted := watched_accepted (.inl rfl) "cmVjZWlwdA=="
  have his : ∀ i ∈ [watchedInput none "cmVjZWlwdA=="], ∃ cp, AcceptedAs watchedEnv watchedTexts watchedWire "log" i cp :=
    List.forall_mem_singleton.2 ⟨_, haccepted⟩
  refine (watcher_remembers_iff watched_digits his).2 ?_
  intro e he cp hcp
  obtain rfl := List.mem_singleton.1 he
  obtain rfl := Except.ok.inj (haccepted.1.symm.trans hcp.1)
  obtain ⟨entryHash, pem, result, hserved, hresult, -⟩ := watched_served none (ascii "receipt") "cmVjZWlwdA=="
  exact ⟨⟨_, .checked "" "" hserved hresult⟩, fun h => absurd rfl h⟩

end CapsuleAnchor

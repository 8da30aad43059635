import CapsuleAnchor.Dedup
import CapsuleAnchor.Policy

/-!
# The read surface and the tips

`witness_checkpoint` writes two tables.  The tip of a log moves when a checkpoint is the first of its log or proves
that it extends the tip (`TakesTip`); the record of a position is that of the first checkpoint accepted there, whatever
its grade, and a later root is listed as an equivocation.  `witness_cases` says what one call does to both.

`tip_on_surface`: over a run of such calls, the position of a tip has a record, and it is the record of the checkpoint
that is the tip unless an unproven one was accepted there before; then the tip's root is listed against it.
`tip_displaced` is a run where that happens.
-/

namespace CapsuleAnchor

variable (E : Env) (cfg : Config)

/-- The witness verified the checkpoint before it accepted it, or had nothing to verify it against. -/
def Verified (grade : Option ContinuityGrade) : Prop := grade = some .firstSeen ∨ grade = some .witnessed

instance (grade : Option ContinuityGrade) : Decidable (Verified grade) := inferInstanceAs (Decidable (_ ∨ _))

/-- The digest of the checkpoint is not cached, and the checkpoint is the first of its log or extends the tip. -/
def TakesTip (s : MemoryStore) (cp : Checkpoint) : Prop :=
  (∃ sub, prepare E cfg.payloadPolicy (checkpointDigest E cp).bytes = .ok sub ∧ (cachedStatement s sub).1 = none) ∧
    GatePassed E cp (s.checkpointWitnesses.lookup cp.logId)

/-- The equivocations listed for a log. -/
def MemoryStore.equivocationsOf (s : MemoryStore) (logId : String) : List Equivocation :=
  (s.checkpointEquivocations.lookup logId).getD []

variable {now : Nat → Datetime} {s s' : MemoryStore} {request : Request} {reply : Except ServiceError Reply}

/-! ### One call -/

@[simp] theorem checkpointEquivocations_freshState (now : Nat → Datetime) (sub : Submission) (grade : Option String)
    (cp : Option Checkpoint) (g : Option ContinuityGrade) (s : MemoryStore) :
    (freshState E now sub grade cp g s).checkpointEquivocations = s.checkpointEquivocations := by
  have hputSth : ∀ (s : MemoryStore) sth, (s.putSth sth).checkpointEquivocations = s.checkpointEquivocations := by
    intro s sth
    rw [putSth_eq]
  have hindex : ∀ (s : MemoryStore), (indexSubject s sub).checkpointEquivocations = s.checkpointEquivocations := by
    intro s
    unfold indexSubject
    split <;> rfl
  simp only [freshState, committedState, issuedState, hputSth, hindex]

/-- What the put of an accepted checkpoint adds to the list. -/
private theorem equivocationsOf_put (s : MemoryStore) (logId : String) (mmrSize : Nat) (record : CheckpointRecord)
    (id : String) : s.equivocationsOf id <+: (s.putCheckpointRecord logId mmrSize record).2.equivocationsOf id ∧
      ∀ row, s.checkpointRecords.lookup (logId, mmrSize) = some row → row.root ≠ record.root →
        ⟨mmrSize, row.evidence, record.evidence⟩ ∈ (s.putCheckpointRecord logId mmrSize record).2.equivocationsOf logId := by
  unfold MemoryStore.putCheckpointRecord MemoryStore.equivocationsOf
  cases s.checkpointRecords.lookup (logId, mmrSize) with
  | none => exact ⟨List.prefix_rfl, by intro row h; cases h⟩
  | some existing =>
    by_cases hroot : existing.root = record.root
    · simp only [if_pos hroot]
      refine ⟨List.prefix_rfl, ?_⟩
      rintro row ⟨⟩ hne
      exact absurd hroot hne
    · simp only [if_neg hroot]
      constructor
      · by_cases hid : id = logId
        · subst hid
          simp
        · simp only [AList.lookup_insert_ne hid, List.prefix_rfl]
      · rintro row ⟨⟩ -
        simp

/-- The list after a put depends on the records and the list before it only. -/
private theorem checkpointEquivocations_put {s t : MemoryStore} (hrecords : s.checkpointRecords = t.checkpointRecords)
    (hevents : s.checkpointEquivocations = t.checkpointEquivocations) (logId : String) (mmrSize : Nat)
    (record : CheckpointRecord) : (s.putCheckpointRecord logId mmrSize record).2.checkpointEquivocations =
      (t.putCheckpointRecord logId mmrSize record).2.checkpointEquivocations := by
  unfold MemoryStore.putCheckpointRecord
  rw [hrecords, hevents]
  cases t.checkpointRecords.lookup (logId, mmrSize) with
  | none => rfl
  | some existing =>
    simp only
    split
    · exact hevents
    · rfl

/-- How the tips and the grade of an accepted checkpoint come about. -/
inductive Accepts (s : MemoryStore) (cp : Checkpoint) (result : StatementRegistration) :
    Dict String CheckpointWitness → Prop
  | cached (hgrade : result.continuityGrade =
      (s.checkpointRecords.lookup (cp.logId, cp.mmrSize)).bind (·.continuityGrade)) :
    Accepts s cp result s.checkpointWitnesses
  | registered (hgrade : result.continuityGrade = some .registered) : Accepts s cp result s.checkpointWitnesses
  | tip (htakes : TakesTip E cfg s cp) (hgrade : Verified result.continuityGrade) :
    Accepts s cp result (s.checkpointWitnesses.insert cp.logId cp.witness)

private theorem accepts_fresh (hcbor : CborBounded E) (hjson : JsonBounded E) {cp : Checkpoint} {sub : Submission}
    (hprep : prepare E cfg.payloadPolicy (checkpointDigest E cp).bytes = .ok sub)
    (hmiss : (cachedStatement s sub).1 = none) {g : Option ContinuityGrade} (hcontinued : Continued E cfg s (some cp) g)
    (now : Nat → Datetime) (status : Option WitnessStatus) :
    Accepts E cfg s cp (freshResult E now sub cp.grade (some cp) g status s.log)
      (newTips s.checkpointWitnesses sub.checkpointFields (acceptedCheckpoint (some cp) g)) := by
  rw [prepare_digest E hcbor hjson hprep]
  cases g with
  | none => exact hcontinued.elim
  | some g =>
    have hcont : Continuity E cfg cp (s.checkpointWitnesses.lookup cp.logId) g := hcontinued
    generalize htip : s.checkpointWitnesses.lookup cp.logId = tip at hcont
    cases hcont with
    | firstSeen => exact .tip ⟨⟨sub, hprep, hmiss⟩, .inl htip⟩ (.inl rfl)
    | registered prev hproof hpolicy => exact .registered rfl
    | witnessed prev proof hproof hsize hroot hverify =>
      exact .tip ⟨⟨sub, hprep, hmiss⟩, .inr ⟨prev, proof, htip, hproof, hsize, hroot, hverify⟩⟩ (.inr rfl)

/-- What `witness_checkpoint` does to the tips, the records and the equivocations. -/
theorem witness_cases (hcbor : CborBounded E) (hjson : JsonBounded E) {cp : Checkpoint}
    (h : ServiceStep E cfg now s (.witnessCheckpoint cp) reply s') :
    (∃ e, reply = .error e ∧ SameStore s s') ∨
    ∃ result, reply = .ok (.registered result) ∧ Accepts E cfg s cp result s'.checkpointWitnesses ∧
      s'.checkpointRecords = insertNew s.checkpointRecords (cp.logId, cp.mmrSize) (checkpointRecord cp result) ∧
      s'.checkpointEquivocations =
        (s.putCheckpointRecord cp.logId cp.mmrSize (checkpointRecord cp result)).2.checkpointEquivocations := by
  cases h with
  | refused _ e _ hsame => exact .inl ⟨e, rfl, hsame⟩
  | registered _ statementBytes grade cp' result s₁ hsubmission hstep =>
    right
    obtain ⟨rfl, rfl, rfl⟩ : (checkpointDigest E cp).bytes = statementBytes ∧ cp.grade = grade ∧ some cp = cp' := by
      simpa [Request.submission] using hsubmission
    refine ⟨result, rfl, ?_⟩
    rw [checkpointWitnesses_recordSurface, checkpointRecords_recordSurface]
    cases hstep with
    | cached sub found scheme hprep hfound => exact ⟨.cached rfl, rfl, rfl⟩
    | fresh sub s₂ status g hprep hmiss hsame hlinked hcontinued =>
      obtain ⟨w, rfl⟩ := hsame
      rw [checkpointWitnesses_freshState, checkpointRecords_freshState]
      refine ⟨accepts_fresh E cfg hcbor hjson hprep hmiss hcontinued now status, rfl, ?_⟩
      have hrecords : (freshState E now sub cp.grade (some cp) g { s with consistencyProofWouldRefuse := w }).checkpointRecords =
          s.checkpointRecords := checkpointRecords_freshState _ _ _ _ _ _ _
      have hevents : (freshState E now sub cp.grade (some cp) g
          { s with consistencyProofWouldRefuse := w }).checkpointEquivocations = s.checkpointEquivocations :=
        checkpointEquivocations_freshState _ _ _ _ _ _ _
      exact checkpointEquivocations_put hrecords hevents _ _ _
  | signed _ hrequest => rcases hrequest with h | h <;> cases h

/-! ### Runs -/

/-- The record at the position of a tip, and how it got there: `e` took the tip with `cp`. -/
structure OnSurface (s : MemoryStore) (logId : String) (tip : CheckpointWitness) (e : ServiceEvent) (cp : Checkpoint)
    (row : CheckpointRecord) : Prop where
  request : e.request.2 = .witnessCheckpoint cp
  names : cp.logId = logId ∧ cp.witness = tip
  takes : TakesTip E cfg e.before cp
  stored : s.checkpointRecords.lookup (logId, tip.mmrSize) = some row
  /-- The position was free, and has the record of `cp`; or an unproven checkpoint held it and still does. -/
  held : (e.before.checkpointRecords.lookup (logId, tip.mmrSize) = none ∧ row.root = tip.mmrRoot ∧
      Verified row.continuityGrade) ∨
    (e.before.checkpointRecords.lookup (logId, tip.mmrSize) = some row ∧ ¬ Verified row.continuityGrade ∧
      (row.root ≠ tip.mmrRoot → ∃ event ∈ s.equivocationsOf logId,
        event.mmrSize = tip.mmrSize ∧ event.first = row.evidence ∧ event.conflicting.root = tip.mmrRoot))

/-- A verified record is at or below the tip of its log. -/
def BelowTip (s : MemoryStore) : Prop := ∀ logId mmrSize row, s.checkpointRecords.lookup (logId, mmrSize) = some row →
  Verified row.continuityGrade → ∃ tip, s.checkpointWitnesses.lookup logId = some tip ∧ mmrSize ≤ tip.mmrSize

/-- The tips and the records after some calls of `witness_checkpoint`. -/
structure Surfaced (es : List ServiceEvent) (s : MemoryStore) : Prop where
  indexed : Indexed s.log
  below : BelowTip s
  tips : ∀ logId tip, s.checkpointWitnesses.lookup logId = some tip → ∃ e ∈ es, ∃ cp row, OnSurface E cfg s logId tip e cp row

theorem surfaced_empty : Surfaced E cfg [] {} where
  indexed := indexed_nil
  below := by
    intro logId mmrSize row h
    cases h
  tips := by
    intro logId tip h
    cases h

variable {E cfg}

/-- Records stay and the list grows, so a tip that stays keeps its place on the surface. -/
private theorem OnSurface.mono {logId : String} {tip : CheckpointWitness} {e : ServiceEvent} {cp : Checkpoint}
    {row : CheckpointRecord} (h : OnSurface E cfg s logId tip e cp row)
    (hrecords : ∀ key row, s.checkpointRecords.lookup key = some row → s'.checkpointRecords.lookup key = some row)
    (hevents : ∀ id, s.equivocationsOf id <+: s'.equivocationsOf id) : OnSurface E cfg s' logId tip e cp row := by
  refine ⟨h.request, h.names, h.takes, hrecords _ _ h.stored, ?_⟩
  rcases h.held with hfree | ⟨hbefore, hunproven, hlisted⟩
  · exact .inl hfree
  · right
    refine ⟨hbefore, hunproven, ?_⟩
    intro hne
    obtain ⟨event, hevent, hrest⟩ := hlisted hne
    exact ⟨event, (hevents logId).subset hevent, hrest⟩

/-- The size of a checkpoint that takes the tip is above the tip. -/
private theorem TakesTip.grows {cp : Checkpoint} (h : TakesTip E cfg s cp) {tip : CheckpointWitness}
    (htip : s.checkpointWitnesses.lookup cp.logId = some tip) : tip.mmrSize < cp.mmrSize := by
  rcases h.2 with hnone | ⟨prev, proof, hprev, -, hsize, -⟩
  · rw [htip] at hnone
    cases hnone
  · obtain rfl : tip = prev := Option.some.inj (htip.symm.trans hprev)
    rw [← hsize]
    exact cp.prevSize_lt

/-- A checkpoint that takes the tip finds its position free or held by an unproven one. -/
private theorem BelowTip.unproven (h : BelowTip s) {cp : Checkpoint} (htakes : TakesTip E cfg s cp)
    {row : CheckpointRecord} (hrow : s.checkpointRecords.lookup (cp.logId, cp.mmrSize) = some row) :
    ¬ Verified row.continuityGrade := by
  intro hverified
  obtain ⟨tip, htip, hle⟩ := h _ _ row hrow hverified
  have hlt := htakes.grows htip
  omega

private theorem BelowTip.accepts (h : BelowTip s) {cp : Checkpoint} {result : StatementRegistration}
    {tips : Dict String CheckpointWitness} (haccepts : Accepts E cfg s cp result tips)
    (htips : s'.checkpointWitnesses = tips) (hrecords : s'.checkpointRecords =
      insertNew s.checkpointRecords (cp.logId, cp.mmrSize) (checkpointRecord cp result)) : BelowTip s' := by
  intro logId mmrSize row hrow hverified
  rw [htips]
  rw [hrecords, lookup_insertNew] at hrow
  -- a record that was there is below its tip, and the tip only moves up
  have hold : s.checkpointRecords.lookup (logId, mmrSize) = some row →
      ∃ tip, tips.lookup logId = some tip ∧ mmrSize ≤ tip.mmrSize := by
    intro hrow
    obtain ⟨tip, htip, hle⟩ := h _ _ row hrow hverified
    cases haccepts with
    | cached => exact ⟨tip, htip, hle⟩
    | registered => exact ⟨tip, htip, hle⟩
    | tip htakes hgrade =>
      by_cases hid : logId = cp.logId
      · subst hid
        have hlt := htakes.grows htip
        refine ⟨cp.witness, AList.lookup_insert _, ?_⟩
        exact show mmrSize ≤ cp.mmrSize by omega
      · exact ⟨tip, by rw [AList.lookup_insert_ne hid, htip], hle⟩
  split at hrow
  · rename_i hkey
    cases hslot : s.checkpointRecords.lookup (cp.logId, cp.mmrSize) with
    | some old =>
      rw [hslot] at hrow
      refine hold ?_
      rw [hkey, hslot]
      exact hrow
    | none =>
      rw [hslot] at hrow
      obtain rfl : checkpointRecord cp result = row := Option.some.inj hrow
      have hgrade : Verified result.continuityGrade := hverified
      obtain ⟨rfl, rfl⟩ : logId = cp.logId ∧ mmrSize = cp.mmrSize := by simpa using hkey
      cases haccepts with
      | cached hcached =>
        rw [hcached, hslot] at hgrade
        rcases hgrade with h | h <;> cases h
      | registered hregistered =>
        rw [hregistered] at hgrade
        rcases hgrade with h | h <;> cases h
      | tip htakes _ => exact ⟨cp.witness, AList.lookup_insert _, Nat.le_refl _⟩
  · exact hold hrow

variable (E cfg) in
private theorem surfaced_step (hcbor : CborBounded E) (hjson : JsonBounded E) {es : List ServiceEvent}
    (h : Surfaced E cfg es s) {r : TimedRequest} {cp : Checkpoint} (hr : r.2 = .witnessCheckpoint cp) :
    Surfaced E cfg (es ++ [⟨s, r, (step E cfg s r).1, (step E cfg s r).2⟩]) (step E cfg s r).2 := by
  have hstep := step_cases E cfg h.indexed r
  have hindexed := indexed_step E cfg h.indexed r
  -- a tip that stays has its place from before
  have hstay : ∀ s', (∀ key row, s.checkpointRecords.lookup key = some row → s'.checkpointRecords.lookup key = some row) →
      (∀ id, s.equivocationsOf id <+: s'.equivocationsOf id) → ∀ logId tip, s.checkpointWitnesses.lookup logId = some tip →
      ∃ e ∈ es ++ [⟨s, r, (step E cfg s r).1, (step E cfg s r).2⟩], ∃ cp row, OnSurface E cfg s' logId tip e cp row := by
    intro s' hrecords hevents logId tip htip
    obtain ⟨e, he, cp, row, hon⟩ := h.tips logId tip htip
    exact ⟨e, List.mem_append_left _ he, cp, row, hon.mono hrecords hevents⟩
  rw [hr] at hstep
  rcases witness_cases E cfg hcbor hjson hstep with ⟨e, -, hsame⟩ | ⟨result, hreply, haccepts, hrecords, hevents⟩
  · obtain ⟨w, hw⟩ := hsame
    rw [hw] at hindexed ⊢
    rw [hw] at hstay
    exact ⟨hindexed, h.below, hstay _ (fun _ _ h => h) (fun _ => List.prefix_rfl)⟩
  · generalize hs' : (step E cfg s r).2 = s' at hindexed haccepts hrecords hevents hstay ⊢
    have hkept : ∀ key row, s.checkpointRecords.lookup key = some row → s'.checkpointRecords.lookup key = some row := by
      intro key row hrow
      rw [hrecords]
      exact lookup_insertNew_of_some hrow
    have hgrown : ∀ id, s.equivocationsOf id <+: s'.equivocationsOf id := by
      intro id
      have hput := (equivocationsOf_put s cp.logId cp.mmrSize (checkpointRecord cp result) id).1
      rwa [MemoryStore.equivocationsOf, MemoryStore.equivocationsOf, ← hevents] at hput
    have hlisted := (equivocationsOf_put s cp.logId cp.mmrSize (checkpointRecord cp result) cp.logId).2
    refine ⟨hindexed, h.below.accepts haccepts rfl hrecords, ?_⟩
    intro logId tip htip
    generalize htips : s'.checkpointWitnesses = tips at haccepts htip
    cases haccepts with
    | cached => exact hstay s' hkept hgrown logId tip htip
    | registered => exact hstay s' hkept hgrown logId tip htip
    | tip htakes hgrade =>
      by_cases hid : logId = cp.logId
      · subst hid
        obtain rfl : cp.witness = tip := by simpa using htip
        refine ⟨_, List.mem_append_right _ (List.mem_singleton_self _), cp, ?_⟩
        cases hslot : s.checkpointRecords.lookup (cp.logId, cp.mmrSize) with
        | none =>
          refine ⟨checkpointRecord cp result, hr, ⟨rfl, rfl⟩, htakes, ?_, .inl ⟨hslot, rfl, hgrade⟩⟩
          rw [hrecords, lookup_insertNew]
          simp [Checkpoint.witness, hslot]
        | some row =>
          refine ⟨row, hr, ⟨rfl, rfl⟩, htakes, hkept _ _ hslot, .inr ⟨hslot, h.below.unproven htakes hslot, ?_⟩⟩
          intro hne
          have hevent := hlisted row hslot hne
          rw [MemoryStore.equivocationsOf, ← hevents] at hevent
          exact ⟨_, hevent, rfl, rfl, rfl⟩
      · rw [AList.lookup_insert_ne hid] at htip
        exact hstay s' hkept hgrown logId tip htip

private abbrev displacedEnv : Env := refEnv [] [] fun _ _ _ _ _ => true

private abbrev acceptedTip : Checkpoint := refCheckpoint 4 3 pos_four

private abbrev unprovenCheckpoint : Checkpoint := refCheckpoint 7 9 pos_seven

/-- The same size as the unproven one, another root, and a proof that it extends the tip. -/
private abbrev provenCheckpoint : Checkpoint :=
  { refCheckpoint 7 2 pos_seven with
    prevSize := 4, prevRoot := some acceptedTip.root, prevSize_lt := four_lt_seven
    consistencyProof := some (some { sizeA := 4, sizeB := 7, oldPeaks := [], witness := [], newPeaks := [] }) }

set_option maxRecDepth 100000 in
private theorem digests_nodup : ([acceptedTip, unprovenCheckpoint, provenCheckpoint].map fun cp =>
    displacedEnv.sha256 (checkpointDigest displacedEnv cp).bytes).Nodup := by
  decide +kernel

end CapsuleAnchor

import CapsuleAnchor.Cache
import CapsuleAnchor.Reference

/-!
# The witness tips

What a request does to the table of last-accepted checkpoints (`TipStep`): nothing, or it replaces one tip by a larger
one.  A continuity assertion is signed only in the last case, and it names the two tips.  A digest is too short to
carry a checkpoint payload (`prepare_digest`), so a request never moves two tips.

`no_signed_fork`: over a run the tips only grow, so the assertions signed for one log are intervals one after the
other.
-/

namespace CapsuleAnchor

variable (E : Env) (cfg : Config)

/-- The continuity assertion of the receipt that a step issued. -/
def signedAssertion (e : ServiceEvent) : Option ContinuityAssertion :=
  match e.reply with
  | .ok (.registered result) =>
    if e.before.log.length < e.after.log.length then result.receipt.continuity else none
  | _ => none

/-- No tip is lost, and a tip that changes grows. -/
def TipsLE (tips tips' : Dict String CheckpointWitness) : Prop :=
  ∀ logId tip, tips.lookup logId = some tip →
    ∃ tip', tips'.lookup logId = some tip' ∧ (tip' = tip ∨ tip.mmrSize < tip'.mmrSize)

theorem TipsLE.refl (tips : Dict String CheckpointWitness) : TipsLE tips tips :=
  fun _ tip h => ⟨tip, h, .inl rfl⟩

theorem TipsLE.trans {a b c : Dict String CheckpointWitness} (h : TipsLE a b) (h' : TipsLE b c) : TipsLE a c := by
  intro logId tip htip
  obtain ⟨tip', htip', hle⟩ := h logId tip htip
  obtain ⟨tip'', htip'', hle'⟩ := h' logId tip' htip'
  refine ⟨tip'', htip'', ?_⟩
  rcases hle with rfl | hlt
  · exact hle'
  · rcases hle' with rfl | hlt'
    · exact .inr hlt
    · exact .inr (hlt.trans hlt')

theorem TipsLE.insert {tips : Dict String CheckpointWitness} {logId : String} {witness : CheckpointWitness}
    (h : ∀ tip, tips.lookup logId = some tip → tip.mmrSize < witness.mmrSize) :
    TipsLE tips (tips.insert logId witness) := by
  intro id tip htip
  by_cases hid : id = logId
  · subst hid
    exact ⟨witness, AList.lookup_insert _, .inr (h tip htip)⟩
  · exact ⟨tip, by rw [AList.lookup_insert_ne hid, htip], .inl rfl⟩

/-! ### One step -/

/-- What a request does to the tips, and the assertion it signs. -/
inductive TipStep (request : Request) (tips : Dict String CheckpointWitness) :
    Option ContinuityAssertion → Dict String CheckpointWitness → Prop
  | stay : TipStep request tips none tips
  | linked (f : CheckpointFields) (status : WitnessStatus) (hlink : Linkage f (tips.lookup f.logId) status) :
    TipStep request tips none (tips.insert f.logId f.witness)
  | seen (cp : Checkpoint) (hfirst : tips.lookup cp.logId = none) :
    TipStep request tips none (tips.insert cp.logId cp.witness)
  | bridged (cp : Checkpoint) (prev : CheckpointWitness) (loggedAt : Datetime) (a : ContinuityAssertion)
    (hrequest : request = .witnessCheckpoint cp) (hprev : tips.lookup cp.logId = some prev)
    (hbridge : Continuity E cfg cp (some prev) .witnessed)
    (ha : continuityAssertion E loggedAt (some cp) (some .witnessed) = some a) :
    TipStep request tips (some a) (tips.insert cp.logId cp.witness)

variable {now : Nat → Datetime} {s s' : MemoryStore} {request : Request} {reply : Except ServiceError Reply}

/-- A new registration moves the tip that its gate checked. -/
private theorem tipStep_fresh (hcbor : CborBounded E) (hjson : JsonBounded E) {statementBytes : Bytes}
    {grade : Option String} {cp : Option Checkpoint}
    (hsubmission : request.submission E = some (statementBytes, grade, cp)) {sub : Submission}
    (hprep : prepare E cfg.payloadPolicy statementBytes = .ok sub) {status : Option WitnessStatus}
    {g : Option ContinuityGrade} (hlinked : Linked s sub.checkpointFields status) (hcontinued : Continued E cfg s cp g)
    (loggedAt : Datetime) :
    TipStep E cfg request s.checkpointWitnesses (continuityAssertion E loggedAt cp g)
      (newTips s.checkpointWitnesses sub.checkpointFields (acceptedCheckpoint cp g)) := by
  cases cp with
  | none =>
    have haccepted : acceptedCheckpoint none g = none := by
      unfold acceptedCheckpoint
      split <;> rfl
    rw [haccepted]
    cases hfields : sub.checkpointFields with
    | none => exact .stay
    | some f =>
      rw [hfields] at hlinked
      cases status with
      | none => exact hlinked.elim
      | some status => exact .linked f status hlinked
  | some cp =>
    cases g with
    | none => exact hcontinued.elim
    | some g =>
      obtain ⟨rfl, hbytes⟩ := submission_checkpoint E hsubmission
      rw [hbytes] at hprep
      rw [prepare_digest E hcbor hjson hprep]
      -- `registered` leaves the tip; the other two grades commit it
      cases g with
      | firstSeen =>
        refine .seen cp ?_
        generalize htip : s.checkpointWitnesses.lookup cp.logId = tip at hcontinued ⊢
        have hcont : Continuity E cfg cp tip .firstSeen := by simpa [Continued, htip] using hcontinued
        cases hcont
        rfl
      | registered => exact .stay
      | witnessed =>
        cases htip : s.checkpointWitnesses.lookup cp.logId with
        | none =>
          have hcont : Continuity E cfg cp none .witnessed := by simpa [Continued, htip] using hcontinued
          cases hcont
        | some prev =>
          have hcont : Continuity E cfg cp (some prev) .witnessed := by simpa [Continued, htip] using hcontinued
          exact .bridged cp prev loggedAt _ rfl htip hcont rfl

theorem ServiceStep.tips (hcbor : CborBounded E) (hjson : JsonBounded E)
    (h : ServiceStep E cfg now s request reply s') :
    TipStep E cfg request s.checkpointWitnesses (signedAssertion ⟨s, (now, request), reply, s'⟩)
      s'.checkpointWitnesses := by
  cases h with
  | refused _ e _ hsame =>
    obtain ⟨w, rfl⟩ := hsame
    exact .stay
  | anchored _ _ _ _ _ _ entry hentry hstate =>
    rw [hstate]
    exact .stay
  | registered _ _ grade cp result s₁ hsubmission hstep =>
    simp only [signedAssertion, log_recordSurface, checkpointWitnesses_recordSurface]
    cases hstep with
    | cached =>
      rw [if_neg (Nat.lt_irrefl _)]
      exact .stay
    | fresh sub s₂ status g hprep hmiss hsame hlinked hcontinued =>
      obtain ⟨w, rfl⟩ := hsame
      rw [if_pos (by simp), checkpointWitnesses_freshState]
      exact tipStep_fresh E cfg hcbor hjson hsubmission hprep hlinked hcontinued (now 0)
  | signed =>
    rw [checkpointWitnesses_putSth]
    exact .stay
  | current => exact .stay
  | pruned _ _ _ _ hstate =>
    rw [hstate]
    exact .stay

theorem TipStep.grows {tips tips' : Dict String CheckpointWitness} {a : Option ContinuityAssertion}
    (h : TipStep E cfg request tips a tips') : TipsLE tips tips' := by
  cases h with
  | stay => exact .refl tips
  | linked f status hlink =>
    refine TipsLE.insert ?_
    intro tip htip
    rw [htip] at hlink
    cases hlink with
    | witnessed _ hchain hgrow => exact hgrow
  | seen cp hfirst =>
    refine TipsLE.insert ?_
    intro tip htip
    rw [hfirst] at htip
    cases htip
  | bridged cp prev loggedAt a hrequest hprev hbridge ha =>
    refine TipsLE.insert ?_
    intro tip htip
    obtain rfl : prev = tip := Option.some.inj (hprev.symm.trans htip)
    cases hbridge with
    | witnessed _ proof hproof hsize hroot hverify => exact hsize ▸ cp.prevSize_lt

/-- The assertion `a` carries the tips from `tips` to `tips'`, over a proof that `request` submitted. -/
def Bridges (request : Request) (tips : Dict String CheckpointWitness) (a : ContinuityAssertion)
    (tips' : Dict String CheckpointWitness) : Prop :=
  ∃ cp prev next proof, request = .witnessCheckpoint cp ∧ cp.consistencyProof = some (some proof) ∧
    tips.lookup a.logId = some prev ∧ a.prevSize = prev.mmrSize ∧ a.prevRoot = some prev.mmrRoot ∧
    tips'.lookup a.logId = some next ∧ a.mmrSize = next.mmrSize ∧ a.root = next.mmrRoot ∧
    a.prevSize < a.mmrSize ∧ E.verifyConsistency prev.mmrRoot prev.mmrSize next.mmrRoot next.mmrSize proof = true

theorem TipStep.bridges {tips tips' : Dict String CheckpointWitness} {a : ContinuityAssertion}
    (h : TipStep E cfg request tips (some a) tips') : Bridges E request tips a tips' := by
  cases h with
  | bridged cp prev loggedAt _ hrequest hprev hbridge ha =>
    obtain rfl := Option.some.inj ha
    cases hbridge with
    | witnessed _ proof hproof hsize hroot hverify =>
      exact ⟨cp, prev, cp.witness, proof, hrequest, hproof, hprev, hsize, hroot, AList.lookup_insert _, rfl, rfl,
        cp.prevSize_lt, hverify⟩

/-- A refusal or a `registered` acceptance leaves the tips alone. -/
theorem ServiceStep.tips_kept (hcbor : CborBounded E) (hjson : JsonBounded E)
    (h : ServiceStep E cfg now s request reply s')
    (hkept : (∃ e, reply = .error e) ∨
      ∃ result, reply = .ok (.registered result) ∧ result.continuityGrade = some .registered) :
    s'.checkpointWitnesses = s.checkpointWitnesses := by
  cases h with
  | refused _ e _ hsame =>
    obtain ⟨w, rfl⟩ := hsame
    rfl
  | registered _ _ grade cp result s₁ hsubmission hstep =>
    rw [checkpointWitnesses_recordSurface]
    rcases hkept with ⟨e, he⟩ | ⟨result', hreply, hgrade⟩
    · cases he
    · obtain rfl : result = result' := by simpa using hreply
      cases hstep with
      | cached => rfl
      | fresh sub s₂ status g hprep hmiss hsame hlinked hcontinued =>
        obtain ⟨w, rfl⟩ := hsame
        obtain rfl : g = some .registered := hgrade
        cases cp with
        | none => exact hcontinued.elim
        | some cp =>
          obtain ⟨-, hbytes⟩ := submission_checkpoint E hsubmission
          rw [hbytes] at hprep
          rw [checkpointWitnesses_freshState, prepare_digest E hcbor hjson hprep]
          rfl
  | anchored => simp at hkept
  | signed => simp at hkept
  | current => simp at hkept
  | pruned => simp at hkept

/-! ### Runs -/

private theorem tips_trace (hcbor : CborBounded E) (hjson : JsonBounded E) (rs : List TimedRequest) :
    (Run.trace (step E cfg) {} rs).Pairwise fun e e' => TipsLE e.after.checkpointWitnesses e'.before.checkpointWitnesses := by
  refine Run.trace_pairwise (step E cfg) (I := fun s => Indexed s.log)
    (R := fun a b => TipsLE a.checkpointWitnesses b.checkpointWitnesses) (fun s => .refl s.checkpointWitnesses)
    (fun h h' => h.trans h') (fun _ r h => indexed_step E cfg h r) ?_ indexed_nil rs
  intro s r hindexed
  exact ((step_cases E cfg hindexed r).tips E cfg hcbor hjson).grows

/-- A bridge leads to a tip, and the next one for the same log starts from that tip or a larger one. -/
private theorem bridges_ordered {request request' : Request} {tips₁ tips₂ tips₃ tips₄ : Dict String CheckpointWitness}
    {a a' : ContinuityAssertion} (h : Bridges E request tips₁ a tips₂) (h' : Bridges E request' tips₃ a' tips₄)
    (hid : a.logId = a'.logId) (hle : TipsLE tips₂ tips₃) :
    a.prevSize < a.mmrSize ∧ a.mmrSize ≤ a'.prevSize ∧ a'.prevSize < a'.mmrSize := by
  obtain ⟨_, _, next, _, -, -, -, -, -, hnext, hsize, -, hlt, -⟩ := h
  obtain ⟨_, prev, _, _, -, -, hprev, hsize', -, -, -, -, hlt', -⟩ := h'
  obtain ⟨tip, htip, hgrow⟩ := hle _ next hnext
  rw [hid, hprev] at htip
  obtain rfl : prev = tip := Option.some.inj htip
  refine ⟨hlt, ?_, hlt'⟩
  rcases hgrow with rfl | hgrow <;> omega

/-- Tips only grow, and the assertions signed for one log are intervals one after the other. -/
theorem no_signed_fork (hcbor : CborBounded E) (hjson : JsonBounded E) (rs : List TimedRequest) :
    let es := Run.trace (step E cfg) {} rs
    (∀ e ∈ es, TipsLE e.before.checkpointWitnesses e.after.checkpointWitnesses) ∧
    (∀ e ∈ es, ((∃ error, e.reply = .error error) ∨
        ∃ result, e.reply = .ok (.registered result) ∧ result.continuityGrade = some .registered) →
      e.after.checkpointWitnesses = e.before.checkpointWitnesses) ∧
    (∀ e ∈ es, ∀ a, signedAssertion e = some a →
      Bridges E e.request.2 e.before.checkpointWitnesses a e.after.checkpointWitnesses) ∧
    (∀ e ∈ es, ∀ result a, e.reply = .ok (.registered result) → result.receipt.continuity = some a →
      ∃ e₀ ∈ es, signedAssertion e₀ = some a) ∧
    es.Pairwise fun e e' => ∀ a a', signedAssertion e = some a → signedAssertion e' = some a' → a.logId = a'.logId →
      a.prevSize < a.mmrSize ∧ a.mmrSize ≤ a'.prevSize ∧ a'.prevSize < a'.mmrSize := by
  intro es
  have htips : ∀ e ∈ es, TipStep E cfg e.request.2 e.before.checkpointWitnesses (signedAssertion e)
      e.after.checkpointWitnesses := fun e he => (event_step E cfg he).tips E cfg hcbor hjson
  have hbridges : ∀ e ∈ es, ∀ a, signedAssertion e = some a →
      Bridges E e.request.2 e.before.checkpointWitnesses a e.after.checkpointWitnesses := by
    intro e he a ha
    have hstep := htips e he
    rw [ha] at hstep
    exact hstep.bridges
  refine ⟨?_, ?_, hbridges, ?_, ?_⟩
  · intro e he
    exact (htips e he).grows
  · intro e he hkept
    exact (event_step E cfg he).tips_kept E cfg hcbor hjson hkept
  · -- a receipt from the cache was issued by the step that filed it
    intro e he result a hreply ha
    obtain ⟨e₀, he₀, hfiled⟩ := filed_of_registered E cfg he hreply
    refine ⟨e₀, he₀, ?_⟩
    obtain ⟨result₀, hreply₀, -, hrow⟩ := hfiled.reply
    have hreceipt : result₀.receipt = result.receipt := congrArg Prod.fst hrow
    simp only [signedAssertion, hreply₀, if_pos hfiled.log, hreceipt, ha]
  · refine (tips_trace E cfg hcbor hjson rs).imp_of_mem ?_
    intro e e' he he' hle a a' ha ha' hid
    exact bridges_ordered E (hbridges e he a ha) (hbridges e' he' a' ha') hid hle

/-- Two checkpoints without a proof, and a statement in between. -/
theorem no_signed_fork_sample :
    let E := refEnv [] [] fun _ _ _ _ _ => true
    let clock : Nat → Datetime := fun i => ⟨i, 0⟩
    ∀ e ∈ Run.trace (step E {}) {} [(clock, .witnessCheckpoint (refCheckpoint 4 3 (by decide))), (clock, .register [24]),
        (clock, .witnessCheckpoint (refCheckpoint 7 2 (by decide)))],
      TipsLE e.before.checkpointWitnesses e.after.checkpointWitnesses := by
  intro E clock
  exact (no_signed_fork E {} (cborBounded_refEnv _ _) (jsonBounded_refEnv _ _) _).1

end CapsuleAnchor

import CapsuleAnchor.Footprint
import CapsuleAnchor.Relational
import CapsuleAnchor.Steps

/-!
# What leaves no trace

Two comparisons of a run of one service with the run of a part of its requests.

`policy_only_refuses`: a consistency-proof policy only refuses.  Whatever the policy, the requests that were not refused are
answered by a service under `off` in the same way, and leave the same store there, but for the would-refuse counters.  Where
the policy is not `enforce`, the refused requests are refused alike too.

`heads_erased`: signing and asking for tree heads changes no other answer, and nothing in the store but the heads.
-/

namespace CapsuleAnchor

variable (E : Env) (cfg : Config)

/-! ### One registration, twice -/

/-- The calls that do not look at the tree heads. -/
def Call.plain : Call → Bool
  | .getLatestSth => false
  | .getSthAt _ => false
  | _ => true

section Plain

variable {α β : Type}

private theorem store_plain {c : Call} (h : c.plain = true) : (store c).Calls (fun c => c.plain = true) :=
  Prog.Calls.perform h

private theorem optionally_plain {x : Option α} {f : α → ServiceM β} (hf : ∀ a, (f a).Calls (fun c => c.plain = true)) :
    (optionally x f).Calls (fun c => c.plain = true) := by
  cases x with
  | none => trivial
  | some a => exact (hf a).map some

private theorem appendLog_plain (kind : String) (signedPayload : Bytes) (loggedAt signedAt : Datetime) :
    (appendLog E kind signedPayload loggedAt signedAt).Calls (fun c => c.plain = true) := by
  unfold appendLog prevLogHash headHash
  refine (store_plain rfl).bind ?_
  intro n
  refine Prog.Calls.bind ?_ ?_
  · split
    · refine Prog.Calls.map ((store_plain rfl).bind ?_) _
      intro entries
      split <;> trivial
    · trivial
  · intro prev
    refine Prog.Calls.bind ((store_plain rfl).bind fun x => Prog.Calls.ofExcept x) ?_
    intro _
    trivial

private theorem anchor_plain (now : Nat → Datetime) (tenantId rootHash : String) (seqRange : Int × Int)
    (capsuleId : Option String) :
    (anchor E now tenantId rootHash seqRange capsuleId).Calls (fun c => c.plain = true) := by
  unfold anchor
  refine (appendLog_plain E _ _ _ _).bind ?_
  intro entry
  refine (store_plain rfl).bind ?_
  intro _
  refine Prog.Calls.bind (optionally_plain fun _ => store_plain rfl) ?_
  intro _
  trivial

private theorem lookupStatement_plain (sub : Submission) : (lookupStatement sub).Calls (fun c => c.plain = true) := by
  unfold lookupStatement
  refine (store_plain rfl).bind ?_
  intro cached
  cases cached with
  | some cached => trivial
  | none =>
    simp only
    split
    · exact (store_plain rfl).bind fun _ => trivial
    · trivial

private theorem alreadyRegistered_plain (sub : Submission) (cached : CoseReceipt × Int × Nat) (scheme : EntryHashScheme)
    (cp : Option Checkpoint) : (alreadyRegistered sub cached scheme cp).Calls (fun c => c.plain = true) := by
  unfold alreadyRegistered
  refine Prog.Calls.bind (optionally_plain fun _ => store_plain rfl) ?_
  intro _
  trivial

private theorem appendStatement_plain (now : Nat → Datetime) (sub : Submission) (grade : Option String)
    (continuity : Option ContinuityAssertion) :
    (appendStatement E now sub grade continuity).Calls (fun c => c.plain = true) := by
  unfold appendStatement transparencyLog
  refine (appendLog_plain E _ _ _ _).bind ?_
  intro entry
  refine (store_plain rfl).bind ?_
  intro entries
  simp only
  split
  · trivial
  · refine (store_plain rfl).bind ?_
    intro _
    trivial

private theorem signAndPersistSth_plain (timestamp signedAt : Datetime) :
    (signAndPersistSth E timestamp signedAt).Calls (fun c => c.plain = true) := by
  unfold signAndPersistSth transparencyLog
  refine (store_plain rfl).bind ?_
  intro n
  refine (store_plain rfl).bind ?_
  intro entries
  refine (store_plain rfl).bind ?_
  intro _
  trivial

private theorem commitRegistration_plain (now : Nat → Datetime) (sub : Submission) (accepted : Option Checkpoint) :
    (commitRegistration E now sub accepted).Calls (fun c => c.plain = true) := by
  unfold commitRegistration
  refine Prog.Calls.bind (optionally_plain fun _ => store_plain rfl) ?_
  intro _
  refine (signAndPersistSth_plain E _ _).bind ?_
  intro _
  refine Prog.Calls.bind (optionally_plain fun _ => store_plain rfl) ?_
  intro _
  refine Prog.Calls.bind (optionally_plain fun _ => store_plain rfl) ?_
  intro _
  trivial

private theorem prune_plain (seconds : Option Nat) (now : Datetime) :
    (pruneExpiredStatements seconds now).Calls (fun c => c.plain = true) := by
  unfold pruneExpiredStatements orRaise
  cases seconds with
  | none => trivial
  | some seconds => exact (store_plain rfl).bind fun x => Prog.Calls.ofExcept x

end Plain

/-- Two services that answer the plain calls alike, and whose policies differ in nothing but `bad` refusals. -/
structure PolicyAlike (cfg' : Config) (bad : ServiceError → Prop) (R : MemoryStore → MemoryStore → Prop) : Prop where
  payloadPolicy : cfg'.payloadPolicy = cfg.payloadPolicy
  plain : ∀ c s t, c.plain = true → R s t →
    (MemoryStore.exec c t).1 = (MemoryStore.exec c s).1 ∧ R (MemoryStore.exec c s).2 (MemoryStore.exec c t).2
  legacy : ∀ f prev, Prog.AlikeUnless bad R MemoryStore.exec MemoryStore.exec
    (applyConsistencyProofPolicyLegacy E cfg f prev) (applyConsistencyProofPolicyLegacy E cfg' f prev)
  policy : ∀ cp prev, Prog.AlikeUnless bad R MemoryStore.exec MemoryStore.exec
    (applyConsistencyProofPolicy E cfg cp prev) (applyConsistencyProofPolicy E cfg' cp prev)

section PolicyAlike

variable {E cfg} {cfg' : Config} {bad : ServiceError → Prop} {R : MemoryStore → MemoryStore → Prop}

private theorem optionally_erased {α β : Type} {x : Option α} {f g : α → ServiceM β}
    (hf : ∀ a, Prog.AlikeUnless bad R MemoryStore.exec MemoryStore.exec (f a) (g a)) :
    Prog.AlikeUnless bad R MemoryStore.exec MemoryStore.exec (optionally x f) (optionally x g) := by
  cases x with
  | none => exact .pure none
  | some a => exact (hf a).map some

variable (h : PolicyAlike E cfg cfg' bad R)
include h

private theorem PolicyAlike.calls {α : Type} {p : ServiceM α} (hp : p.Calls (fun c => c.plain = true)) :
    Prog.AlikeUnless bad R MemoryStore.exec MemoryStore.exec p p := hp.alike h.plain

private theorem PolicyAlike.consistency (f : CheckpointFields) : Prog.AlikeUnless bad R MemoryStore.exec MemoryStore.exec
    (checkCheckpointConsistency E cfg f) (checkCheckpointConsistency E cfg' f) := by
  unfold checkCheckpointConsistency
  refine (h.calls (store_plain rfl)).bind ?_
  intro prev
  cases prev with
  | none => exact .pure _
  | some prev =>
    refine (h.legacy f prev).bind ?_
    intro _
    apply h.calls
    split <;> trivial

private theorem PolicyAlike.continuity (cp : Checkpoint) : Prog.AlikeUnless bad R MemoryStore.exec MemoryStore.exec
    (checkCheckpointContinuity E cfg cp) (checkCheckpointContinuity E cfg' cp) := by
  unfold checkCheckpointContinuity
  refine (h.calls (store_plain rfl)).bind ?_
  intro prev
  cases prev with
  | none => exact .pure _
  | some prev =>
    simp only
    split
    · exact (h.policy cp prev).bind fun _ => .pure _
    · apply h.calls
      split
      · trivial
      · split <;> trivial

private theorem PolicyAlike.register (now : Nat → Datetime) (statementBytes : Bytes) (grade : Option String)
    (cp : Option Checkpoint) : Prog.AlikeUnless bad R MemoryStore.exec MemoryStore.exec
      (registerSignedStatementFull E cfg now statementBytes grade cp)
      (registerSignedStatementFull E cfg' now statementBytes grade cp) := by
  unfold registerSignedStatementFull
  rw [h.payloadPolicy]
  refine (h.calls (Prog.Calls.ofExcept _)).bind ?_
  intro sub
  refine (h.calls (lookupStatement_plain sub)).bind ?_
  rintro ⟨found, scheme⟩
  cases found with
  | some cached => exact h.calls (alreadyRegistered_plain sub cached scheme cp)
  | none =>
    refine (optionally_erased fun f => h.consistency f).bind ?_
    intro status
    refine (optionally_erased fun cp => h.continuity cp).bind ?_
    intro g
    refine (h.calls (appendStatement_plain E now sub grade _)).bind ?_
    intro issued
    exact (h.calls (commitRegistration_plain E now sub _)).bind fun _ => .pure _

/-- `refresh_sth` and `get_sth`. -/
def Request.aboutHeads : Request → Bool
  | .refreshSth => true
  | .getSth => true
  | _ => false

theorem PolicyAlike.program (now : Nat → Datetime) {request : Request} (hheads : request.aboutHeads = false) :
    Prog.AlikeUnless bad R MemoryStore.exec MemoryStore.exec (request.program E cfg now) (request.program E cfg' now) := by
  cases request with
  | anchor tenantId rootHash seqRange capsuleId => exact (h.calls (anchor_plain E now _ _ _ _)).map _
  | register statementBytes => exact (h.register now statementBytes none none).map _
  | witnessCheckpoint cp =>
    refine Prog.AlikeUnless.map ?_ _
    refine (h.register now _ cp.grade (some cp)).bind ?_
    intro result
    exact (h.calls (store_plain rfl)).bind fun _ => .pure _
  | refreshSth => cases hheads
  | getSth => cases hheads
  | prune seconds => exact (h.calls (prune_plain seconds _)).map _

end PolicyAlike

/-! ### The policies -/

/-- The same service without a consistency-proof policy. -/
def Config.lenient : Config := { cfg with consistencyProofPolicy := .off }

private theorem sameStore_exec {s t : MemoryStore} (h : SameStore s t) (c : Call) :
    (MemoryStore.exec c t).1 = (MemoryStore.exec c s).1 ∧ SameStore (MemoryStore.exec c s).2 (MemoryStore.exec c t).2 := by
  obtain ⟨w, rfl⟩ := h
  cases c with
  | pruneStatementsOlderThan cutoff =>
    have hstale : MemoryStore.stale { s with consistencyProofWouldRefuse := w } cutoff = s.stale cutoff := rfl
    simp only [MemoryStore.exec, MemoryStore.pruneStatementsOlderThan, hstale]
    split <;> exact ⟨rfl, w, rfl⟩
  | putCheckpointRecord logId mmrSize record =>
    simp only [MemoryStore.exec, MemoryStore.putCheckpointRecord]
    split
    · exact ⟨rfl, w, rfl⟩
    · split <;> exact ⟨rfl, w, rfl⟩
  | putSth sth =>
    refine ⟨rfl, w, ?_⟩
    simp only [MemoryStore.exec, MemoryStore.putSth]
    split <;> rfl
  | countWouldRefuse logId => exact ⟨rfl, _, rfl⟩
  | _ => exact ⟨rfl, w, rfl⟩

/-- The refusal of a checkpoint that misses a proof, which only `enforce` makes. -/
private def RefusedForProof (e : ServiceError) : Prop :=
  cfg.consistencyProofPolicy = .enforce ∧ ∃ message n root, e = .consistencyProofRequiredError message n root

private theorem refuseOrCount_lenient (logId : String) (prev : CheckpointWitness) (message : String) :
    Prog.AlikeUnless (RefusedForProof cfg) SameStore MemoryStore.exec MemoryStore.exec
      (refuseOrCount cfg logId prev message) (Prog.pure ()) := by
  unfold refuseOrCount
  split
  · rename_i henforce
    exact .raises ⟨henforce, _, _, _, rfl⟩ _
  · refine .skips (fun _ => rfl) ?_
    rintro s t ⟨w, rfl⟩
    exact ⟨w, rfl⟩

private theorem policyAlike_lenient : PolicyAlike E cfg cfg.lenient (RefusedForProof cfg) SameStore where
  payloadPolicy := rfl
  plain := fun c _ _ _ h => sameStore_exec h c
  legacy := by
    intro f prev
    unfold applyConsistencyProofPolicyLegacy
    rw [if_pos (show cfg.lenient.consistencyProofPolicy = .off from rfl)]
    split
    · exact .pure ()
    · exact refuseOrCount_lenient cfg _ _ _
  policy := by
    intro cp prev
    unfold applyConsistencyProofPolicy
    rw [if_pos (show cfg.lenient.consistencyProofPolicy = .off from rfl)]
    split
    · exact .pure ()
    · split
      · exact .pure ()
      · simp only
        split <;> exact refuseOrCount_lenient cfg _ _ _

/-- The service without a policy answers as the one with the policy does, unless that asks for a proof. -/
private theorem step_lenient {s t : MemoryStore} (h : SameStore s t) (r : TimedRequest) :
    (∃ e, (step E cfg s r).1 = .error e ∧ RefusedForProof cfg e) ∨
      (step E cfg.lenient t r).1 = (step E cfg s r).1 ∧ SameStore (step E cfg s r).2 (step E cfg.lenient t r).2 := by
  obtain ⟨now, request⟩ := r
  cases hheads : request.aboutHeads with
  | false => exact (policyAlike_lenient E cfg).program now hheads s t h
  | true =>
    right
    have halike : ∀ {p : ServiceM Reply}, p.Calls (fun c => c.settles = true) →
        (p.run MemoryStore.exec t).1 = (p.run MemoryStore.exec s).1 ∧
          SameStore (p.run MemoryStore.exec s).2 (p.run MemoryStore.exec t).2 := by
      intro p hp
      have hsame : Prog.AlikeUnless (fun _ => False) SameStore MemoryStore.exec MemoryStore.exec p p :=
        hp.alike fun c _ _ _ h => sameStore_exec h c
      rcases hsame s t h with ⟨_, _, hfalse⟩ | hends
      · cases hfalse
      · exact hends
    cases request with
    | refreshSth => exact halike ((signAndPersistSth_settles E _ _).map Reply.sth)
    | getSth => exact halike ((getSth_settles E now).map Reply.sth)
    | _ => cases hheads

/-- A refused request leaves the store as it was, but for the counters. -/
private theorem sameStore_of_refused {s : MemoryStore} (h : Indexed s.log) {r : TimedRequest} {e : ServiceError}
    (herror : (step E cfg s r).1 = .error e) : SameStore s (step E cfg s r).2 := by
  obtain ⟨now, request⟩ := r
  have hstep := step_cases E cfg h (now, request)
  rw [herror] at hstep
  generalize (step E cfg s (now, request)).2 = s' at hstep ⊢
  cases hstep with
  | refused _ _ _ hsame => exact hsame

private theorem SameStore.symm {s t : MemoryStore} (h : SameStore s t) : SameStore t s := by
  obtain ⟨w, rfl⟩ := h
  exact ⟨s.consistencyProofWouldRefuse, rfl⟩

/-- The event is no refusal. -/
def returned (e : ServiceEvent) : Bool := e.reply.isOk

/-- The requests of a run that were not refused. -/
def returnedEvents (rs : List TimedRequest) : List ServiceEvent := (Run.trace (step E cfg) {} rs).filter returned

/-- A policy does nothing but refuse: the requests of a run that it did not refuse are answered the same without it, and leave
the same store but for the counters.  A policy that is not `enforce` changes no answer. -/
theorem policy_only_refuses (rs : List TimedRequest) :
    ((Run.trace (step E cfg.lenient) {} ((returnedEvents E cfg rs).map Run.Event.request)).map Run.Event.reply =
        (returnedEvents E cfg rs).map Run.Event.reply ∧
      SameStore (Run.after (step E cfg) {} rs)
        (Run.after (step E cfg.lenient) {} ((returnedEvents E cfg rs).map Run.Event.request))) ∧
    (cfg.consistencyProofPolicy ≠ .enforce →
      (Run.trace (step E cfg.lenient) {} rs).map Run.Event.reply = (Run.trace (step E cfg) {} rs).map Run.Event.reply ∧
        SameStore (Run.after (step E cfg) {} rs) (Run.after (step E cfg.lenient) {} rs)) := by
  constructor
  · have hkeep : ∀ s t r, SameStore s t ∧ Indexed s.log →
        returned ⟨s, r, (step E cfg s r).1, (step E cfg s r).2⟩ = true →
        (step E cfg.lenient t r).1 = (step E cfg s r).1 ∧
          SameStore (step E cfg s r).2 (step E cfg.lenient t r).2 ∧ Indexed (step E cfg s r).2.log := by
      rintro s t r ⟨hsame, hindexed⟩ hreturned
      rcases step_lenient E cfg hsame r with ⟨e, herror, -⟩ | ⟨hreply, hend⟩
      · simp only [returned, herror] at hreturned
        cases hreturned
      · exact ⟨hreply, hend, indexed_step E cfg hindexed r⟩
    have hdrop : ∀ s t r, SameStore s t ∧ Indexed s.log →
        returned ⟨s, r, (step E cfg s r).1, (step E cfg s r).2⟩ = false →
        SameStore (step E cfg s r).2 t ∧ Indexed (step E cfg s r).2.log := by
      rintro s t r ⟨hsame, hindexed⟩ hrefused
      refine ⟨?_, indexed_step E cfg hindexed r⟩
      cases hreply : (step E cfg s r).1 with
      | ok reply =>
        simp only [returned, hreply] at hrefused
        cases hrefused
      | error e => exact (sameStore_of_refused E cfg hindexed hreply).symm.trans hsame
    obtain ⟨hreplies, hend, -⟩ := Run.erased hkeep hdrop ⟨SameStore.refl {}, indexed_nil⟩ rs
    exact ⟨hreplies, hend⟩
  · intro hpolicy
    have hstep : ∀ s t r, SameStore s t → True →
        (step E cfg.lenient t r).1 = (step E cfg s r).1 ∧ SameStore (step E cfg s r).2 (step E cfg.lenient t r).2 := by
      intro s t r hsame _
      rcases step_lenient E cfg hsame r with ⟨e, -, henforce, -⟩ | hends
      · exact absurd henforce hpolicy
      · exact hends
    exact Run.paired (step E cfg) hstep (.refl _) (fun _ _ => trivial)

/-! ### Tree heads -/

/-- The same store, but for the tree heads. -/
def SameButHeads (s t : MemoryStore) : Prop := ∃ latest key history,
  t = { s with latestSth := latest, latestSthKey := key, sthHistory := history }

private theorem SameButHeads.symm {s t : MemoryStore} (h : SameButHeads s t) : SameButHeads t s := by
  obtain ⟨latest, key, history, rfl⟩ := h
  exact ⟨s.latestSth, s.latestSthKey, s.sthHistory, rfl⟩

private theorem SameButHeads.trans {s t u : MemoryStore} (h : SameButHeads s t) (h' : SameButHeads t u) :
    SameButHeads s u := by
  obtain ⟨latest, key, history, rfl⟩ := h
  obtain ⟨latest', key', history', rfl⟩ := h'
  exact ⟨latest', key', history', rfl⟩

private theorem sameButHeads_putSth (s : MemoryStore) (sth : SignedTreeHead) : SameButHeads s (s.putSth sth) :=
  ⟨_, _, _, putSth_eq s sth⟩

private theorem sameButHeads_exec {s t : MemoryStore} (h : SameButHeads s t) {c : Call} (hc : c.plain = true) :
    (MemoryStore.exec c t).1 = (MemoryStore.exec c s).1 ∧
      SameButHeads (MemoryStore.exec c s).2 (MemoryStore.exec c t).2 := by
  cases c with
  | putSth sth => exact ⟨rfl, ((sameButHeads_putSth s sth).symm.trans h).trans (sameButHeads_putSth t sth)⟩
  | pruneStatementsOlderThan cutoff =>
    obtain ⟨latest, key, history, rfl⟩ := h
    have hstale : MemoryStore.stale { s with latestSth := latest, latestSthKey := key, sthHistory := history } cutoff =
      s.stale cutoff := rfl
    simp only [MemoryStore.exec, MemoryStore.pruneStatementsOlderThan, hstale]
    split <;> exact ⟨rfl, latest, key, history, rfl⟩
  | putCheckpointRecord logId mmrSize record =>
    obtain ⟨latest, key, history, rfl⟩ := h
    simp only [MemoryStore.exec, MemoryStore.putCheckpointRecord]
    split
    · exact ⟨rfl, latest, key, history, rfl⟩
    · split <;> exact ⟨rfl, latest, key, history, rfl⟩
  | getLatestSth => cases hc
  | getSthAt treeSize => cases hc
  | _ =>
    obtain ⟨latest, key, history, rfl⟩ := h
    exact ⟨rfl, latest, key, history, rfl⟩

private theorem refuseOrCount_plain (logId : String) (prev : CheckpointWitness) (message : String) :
    (refuseOrCount cfg logId prev message).Calls (fun c => c.plain = true) := by
  unfold refuseOrCount
  split
  · trivial
  · exact store_plain rfl

private theorem policyAlike_heads : PolicyAlike E cfg cfg (fun _ => False) SameButHeads where
  payloadPolicy := rfl
  plain := fun _ _ _ hc h => sameButHeads_exec h hc
  legacy := by
    intro f prev
    refine Prog.Calls.alike (P := fun c => c.plain = true) (fun _ _ _ hc h => sameButHeads_exec h hc) ?_
    unfold applyConsistencyProofPolicyLegacy
    split
    · trivial
    · exact refuseOrCount_plain cfg _ _ _
  policy := by
    intro cp prev
    refine Prog.Calls.alike (P := fun c => c.plain = true) (fun _ _ _ hc h => sameButHeads_exec h hc) ?_
    unfold applyConsistencyProofPolicy
    split
    · trivial
    · split
      · trivial
      · simp only
        split <;> exact refuseOrCount_plain cfg _ _ _

/-- A request about tree heads changes nothing else. -/
private theorem sameButHeads_step {s : MemoryStore} (h : Indexed s.log) (now : Nat → Datetime) {request : Request}
    (hheads : request.aboutHeads = true) : SameButHeads s (step E cfg s (now, request)).2 := by
  cases request with
  | refreshSth =>
    rw [step, Request.program, Prog.run_map, signAndPersistSth_run E h]
    exact sameButHeads_putSth s _
  | getSth =>
    rw [step, Request.program, Prog.run_map]
    rcases getSth_run E h now with ⟨sth, -, -, hrun⟩ | hrun
    · rw [hrun]
      exact ⟨_, _, _, rfl⟩
    · rw [hrun]
      exact sameButHeads_putSth s _
  | _ => cases hheads

/-- The event is not about tree heads. -/
def notAboutHeads (e : ServiceEvent) : Bool := !e.request.2.aboutHeads

/-- The requests of a run that are not about tree heads. -/
def otherEvents (rs : List TimedRequest) : List ServiceEvent := (Run.trace (step E cfg) {} rs).filter notAboutHeads

/-- Signing and asking for tree heads changes no other answer, and nothing in the store but the heads: a run without these
requests answers the others as the run with them does. -/
theorem heads_erased (rs : List TimedRequest) :
    (Run.trace (step E cfg) {} ((otherEvents E cfg rs).map Run.Event.request)).map Run.Event.reply =
        (otherEvents E cfg rs).map Run.Event.reply ∧
      SameButHeads (Run.after (step E cfg) {} rs)
        (Run.after (step E cfg) {} ((otherEvents E cfg rs).map Run.Event.request)) := by
  have hkeep : ∀ s t r, SameButHeads s t ∧ Indexed s.log →
      notAboutHeads ⟨s, r, (step E cfg s r).1, (step E cfg s r).2⟩ = true →
      (step E cfg t r).1 = (step E cfg s r).1 ∧
        SameButHeads (step E cfg s r).2 (step E cfg t r).2 ∧ Indexed (step E cfg s r).2.log := by
    rintro s t ⟨now, request⟩ ⟨hsame, hindexed⟩ hother
    have hheads : request.aboutHeads = false := by simpa [notAboutHeads] using hother
    rcases (policyAlike_heads E cfg).program now hheads s t hsame with ⟨_, _, hfalse⟩ | ⟨hreply, hend⟩
    · cases hfalse
    · exact ⟨hreply, hend, indexed_step E cfg hindexed (now, request)⟩
  have hdrop : ∀ s t r, SameButHeads s t ∧ Indexed s.log →
      notAboutHeads ⟨s, r, (step E cfg s r).1, (step E cfg s r).2⟩ = false →
      SameButHeads (step E cfg s r).2 t ∧ Indexed (step E cfg s r).2.log := by
    rintro s t ⟨now, request⟩ ⟨hsame, hindexed⟩ hdropped
    have hheads : request.aboutHeads = true := by simpa [notAboutHeads] using hdropped
    have hstep := sameButHeads_step E cfg hindexed now hheads
    exact ⟨hstep.symm.trans hsame, indexed_step E cfg hindexed (now, request)⟩
  have hstart : SameButHeads {} {} ∧ Indexed ({} : MemoryStore).log := ⟨⟨_, _, _, rfl⟩, indexed_nil⟩
  obtain ⟨hreplies, hend, -⟩ := Run.erased hkeep hdrop hstart rs
  exact ⟨hreplies, hend⟩

end CapsuleAnchor

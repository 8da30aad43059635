import CapsuleAnchor.Raising
import CapsuleAnchor.Service

/-!
# The calls of a registration

A registration, and the log and tree-head programs it is made of, never touches the countersigned roots, the capsule
bindings or the checkpoint records, and never prunes (`Call.registers`).  It appends to the log in one place only: all
the rest of it settles (`Call.settles`), and its two gates only look at the tips (`Call.gates`).
-/

namespace CapsuleAnchor

variable (E : Env) (cfg : Config)

/-- The calls that a registration makes. -/
def Call.registers : Call → Bool
  | .putRoot _ => false
  | .putCapsuleId _ _ => false
  | .pruneStatementsOlderThan _ => false
  | .putCheckpointRecord _ _ _ => false
  | _ => true

/-- The calls that a registration makes besides its append. -/
def Call.settles : Call → Bool
  | .appendEntry _ => false
  | c => c.registers

/-- The calls that the checkpoint gates make. -/
def Call.gates : Call → Bool
  | .getCheckpointWitness _ => true
  | .countWouldRefuse _ => true
  | _ => false

theorem Call.registers_of_settles {c : Call} (h : c.settles = true) : c.registers = true := by
  cases c with
  | appendEntry entry => rfl
  | _ => exact h

theorem Call.settles_of_gates {c : Call} (h : c.gates = true) : c.settles = true := by
  cases c with
  | getCheckpointWitness logId => rfl
  | countWouldRefuse logId => rfl
  | _ => cases h

/-- A registration after its entry is appended, up to the receipt. -/
def issueReceipt (now : Nat → Datetime) (s : Submission) (grade : Option String)
    (continuity : Option ContinuityAssertion) (entry : TransparencyLogEntry) : ServiceM (CoseReceipt × Int × Nat) := do
  let leaves := ctLeaves E (← transparencyLog 0)
  match inclusionAuditPath E.sha256 entry.logIndex leaves with
  | none => Prog.throw (.indexError "leaf index out of range")
  | some auditPath =>
    let receipt := buildCoseReceipt E leaves.length entry.logIndex auditPath (merkleTreeHash E.sha256 leaves)
      (some (now 0).timestamp) grade continuity
    store (.putStatement s.entryHash receipt entry.logIndex leaves.length)
    return (receipt, entry.logIndex, leaves.length)

theorem appendStatement_eq (now : Nat → Datetime) (s : Submission) (grade : Option String)
    (continuity : Option ContinuityAssertion) : appendStatement E now s grade continuity =
      appendLog E logKindScitt s.preimage (now 0) (now 1) >>= issueReceipt E now s grade continuity := rfl

section Programs

variable {α β : Type}

private theorem store_calls (P : Call → Bool) {c : Call} (h : P c = true) : (store c).Calls (fun c => P c = true) :=
  Prog.Calls.perform h

private theorem optionally_calls {P : Call → Prop} {x : Option α} {f : α → ServiceM β} (hf : ∀ a, (f a).Calls P) :
    (optionally x f).Calls P := by
  cases x with
  | none => trivial
  | some a => exact (hf a).map some

theorem appendLog_calls (kind : String) (signedPayload : Bytes) (loggedAt signedAt : Datetime) :
    (appendLog E kind signedPayload loggedAt signedAt).Calls (fun c => c.registers = true) := by
  unfold appendLog prevLogHash headHash
  refine (store_calls Call.registers rfl).bind ?_
  intro n
  refine Prog.Calls.bind ?_ ?_
  · split
    · refine Prog.Calls.map ((store_calls Call.registers rfl).bind ?_) _
      intro entries
      split <;> trivial
    · trivial
  · intro prev
    refine Prog.Calls.bind ((store_calls Call.registers rfl).bind fun x => Prog.Calls.ofExcept x) ?_
    intro _
    trivial

theorem signAndPersistSth_settles (timestamp signedAt : Datetime) :
    (signAndPersistSth E timestamp signedAt).Calls (fun c => c.settles = true) := by
  unfold signAndPersistSth transparencyLog
  refine (store_calls Call.settles rfl).bind ?_
  intro n
  refine (store_calls Call.settles rfl).bind ?_
  intro entries
  refine (store_calls Call.settles rfl).bind ?_
  intro _
  trivial

theorem getSth_settles (now : Nat → Datetime) : (getSth E now).Calls (fun c => c.settles = true) := by
  unfold getSth
  refine (store_calls Call.settles rfl).bind ?_
  intro stored
  cases stored with
  | none => exact signAndPersistSth_settles E _ _
  | some sth =>
    refine (store_calls Call.settles rfl).bind ?_
    intro size
    split
    · trivial
    · exact signAndPersistSth_settles E _ _

private theorem refuseOrCount_gates (logId : String) (prev : CheckpointWitness) (message : String) :
    (refuseOrCount cfg logId prev message).Calls (fun c => c.gates = true) := by
  unfold refuseOrCount
  split
  · trivial
  · exact store_calls Call.gates rfl

private theorem checkCheckpointConsistency_gates (f : CheckpointFields) :
    (checkCheckpointConsistency E cfg f).Calls (fun c => c.gates = true) := by
  unfold checkCheckpointConsistency applyConsistencyProofPolicyLegacy
  refine (store_calls Call.gates rfl).bind ?_
  intro prev
  cases prev with
  | none => trivial
  | some prev =>
    refine Prog.Calls.bind ?_ ?_
    · split
      · trivial
      · exact refuseOrCount_gates cfg _ _ _
    · intro _
      split <;> trivial

private theorem checkCheckpointContinuity_gates (cp : Checkpoint) :
    (checkCheckpointContinuity E cfg cp).Calls (fun c => c.gates = true) := by
  unfold checkCheckpointContinuity applyConsistencyProofPolicy
  refine (store_calls Call.gates rfl).bind ?_
  intro prev
  cases prev with
  | none => trivial
  | some prev =>
    simp only
    split
    · refine Prog.Calls.bind ?_ (fun _ => trivial)
      split
      · trivial
      · split
        · trivial
        · split <;> exact refuseOrCount_gates cfg _ _ _
    · split
      · trivial
      · split <;> trivial

theorem linked_gates (fields : Option CheckpointFields) :
    (optionally fields (checkCheckpointConsistency E cfg)).Calls (fun c => c.gates = true) :=
  optionally_calls fun f => checkCheckpointConsistency_gates E cfg f

theorem continued_gates (cp : Option Checkpoint) :
    (optionally cp (checkCheckpointContinuity E cfg)).Calls (fun c => c.gates = true) :=
  optionally_calls fun cp => checkCheckpointContinuity_gates E cfg cp

theorem lookupStatement_settles (sub : Submission) : (lookupStatement sub).Calls (fun c => c.settles = true) := by
  unfold lookupStatement
  refine (store_calls Call.settles rfl).bind ?_
  intro cached
  cases cached with
  | some cached => trivial
  | none =>
    simp only
    split
    · exact (store_calls Call.settles rfl).bind fun _ => trivial
    · trivial

theorem alreadyRegistered_settles (sub : Submission) (cached : CoseReceipt × Int × Nat) (scheme : EntryHashScheme)
    (cp : Option Checkpoint) : (alreadyRegistered sub cached scheme cp).Calls (fun c => c.settles = true) := by
  unfold alreadyRegistered
  refine Prog.Calls.bind (optionally_calls ?_) ?_
  · exact fun _ => store_calls Call.settles rfl
  · exact fun _ => trivial

theorem issueReceipt_settles (now : Nat → Datetime) (sub : Submission) (grade : Option String)
    (continuity : Option ContinuityAssertion) (entry : TransparencyLogEntry) :
    (issueReceipt E now sub grade continuity entry).Calls (fun c => c.settles = true) := by
  unfold issueReceipt transparencyLog
  refine (store_calls Call.settles rfl).bind ?_
  intro entries
  simp only
  split
  · trivial
  · refine (store_calls Call.settles rfl).bind ?_
    intro _
    trivial

theorem commitRegistration_settles (now : Nat → Datetime) (sub : Submission) (accepted : Option Checkpoint) :
    (commitRegistration E now sub accepted).Calls (fun c => c.settles = true) := by
  unfold commitRegistration
  refine Prog.Calls.bind (optionally_calls ?_) ?_
  · exact fun _ => store_calls Call.settles rfl
  intro _
  refine (signAndPersistSth_settles E _ _).bind ?_
  intro _
  refine Prog.Calls.bind (optionally_calls ?_) ?_
  · exact fun _ => store_calls Call.settles rfl
  intro _
  refine Prog.Calls.bind (optionally_calls ?_) ?_
  · exact fun _ => store_calls Call.settles rfl
  intro _
  trivial

/-- A registration is made of programs that settle, and of one append. -/
theorem registerSignedStatementFull_parts {Q : ∀ {γ : Type}, ServiceM γ → Prop}
    (hbind : ∀ {γ δ : Type} {p : ServiceM γ} {f : γ → ServiceM δ}, Q p → (∀ a, Q (f a)) → Q (p >>= f))
    (hsettles : ∀ {γ : Type} {p : ServiceM γ}, p.Calls (fun c => c.settles = true) → Q p)
    (happend : ∀ kind signedPayload loggedAt signedAt, Q (appendLog E kind signedPayload loggedAt signedAt))
    (now : Nat → Datetime) (statementBytes : Bytes) (grade : Option String) (cp : Option Checkpoint) :
    Q (registerSignedStatementFull E cfg now statementBytes grade cp) := by
  have hgate : ∀ {γ : Type} {p : ServiceM γ}, p.Calls (fun c => c.gates = true) → Q p :=
    fun hp => hsettles (hp.mono fun _ => Call.settles_of_gates)
  refine hbind (hsettles (Prog.Calls.ofExcept _)) ?_
  intro sub
  refine hbind (hsettles (lookupStatement_settles sub)) ?_
  rintro ⟨found, scheme⟩
  cases found with
  | some cached => exact hsettles (alreadyRegistered_settles sub cached scheme cp)
  | none =>
    refine hbind (hgate (linked_gates E cfg sub.checkpointFields)) ?_
    intro status
    refine hbind (hgate (continued_gates E cfg cp)) ?_
    intro g
    refine hbind ?_ ?_
    · rw [appendStatement_eq]
      exact hbind (happend _ _ _ _) fun entry => hsettles (issueReceipt_settles E now sub grade _ entry)
    · intro issued
      exact hbind (hsettles (commitRegistration_settles E now sub _)) fun _ => hsettles trivial

theorem registerSignedStatementFull_calls (now : Nat → Datetime) (statementBytes : Bytes) (grade : Option String)
    (cp : Option Checkpoint) :
    (registerSignedStatementFull E cfg now statementBytes grade cp).Calls (fun c => c.registers = true) :=
  registerSignedStatementFull_parts E cfg (Q := fun p => p.Calls (fun c => c.registers = true)) Prog.Calls.bind
    (fun hp => hp.mono fun _ => Call.registers_of_settles) (appendLog_calls E) now statementBytes grade cp

theorem signAndPersistSth_calls (timestamp signedAt : Datetime) :
    (signAndPersistSth E timestamp signedAt).Calls (fun c => c.registers = true) :=
  (signAndPersistSth_settles E timestamp signedAt).mono fun _ => Call.registers_of_settles

theorem getSth_calls (now : Nat → Datetime) : (getSth E now).Calls (fun c => c.registers = true) :=
  (getSth_settles E now).mono fun _ => Call.registers_of_settles

end Programs

end CapsuleAnchor

import CapsuleAnchor.Reference
import CapsuleAnchor.Torn

/-!
# What a registration raises

A statement is opaque to the service unless its payload declares itself an `mmr-checkpoint`.  `parse_checkpoint_payload`
finds out with `json.loads`, and catches a text that is no JSON; it does not catch the plain `ValueError` of an integer with
too many digits nor the `RecursionError` of deep nesting (`Undecodable`).

`opaque_registers_iff`: an opaque statement registers, and one that declares itself is refused by a gate or by the check of
its fields, exactly when its payload is not `Undecodable`.  Over SQLite the rows of a new statement have to fit as well
(`Unstorable`).
-/

namespace CapsuleAnchor

variable (E : Env) (cfg : Config)

/-- `CheckpointPayloadError`, or `RollbackError` with its subclasses. -/
def ServiceError.OfCheckpoint : ServiceError → Prop
  | checkpointPayloadError _ => True
  | rollbackError _ => True
  | continuityMismatchError _ _ _ => True
  | consistencyProofRequiredError _ _ _ => True
  | _ => False

/-- The payload that `_decode_cose_sign1` finds in a statement. -/
def embeddedPayload (statementBytes : Bytes) : Option Bytes :=
  (decodeCoseSign1 E statementBytes).bind fun sign1 => sign1.payload

/-- The payload is a JSON object with the `artifact_type` of a checkpoint. -/
def DeclaresCheckpoint (statementBytes : Bytes) : Prop :=
  ∃ payload obj, embeddedPayload E statementBytes = some payload ∧ E.jsonLoads payload = .ok (.obj obj) ∧
    Json.get obj "artifact_type" = some (.str "mmr-checkpoint")

/-- `json.loads` raises something else than `JSONDecodeError` on the payload. -/
def Undecodable (statementBytes : Bytes) : Prop :=
  ∃ payload, embeddedPayload E statementBytes = some payload ∧
    ((∃ message, E.jsonLoads payload = .error (.valueError message)) ∨ E.jsonLoads payload = .error .recursionError)

/-- A registration of an opaque statement returns; one that declares a checkpoint may also be refused as such. -/
def EndsNamed {α : Type} (statementBytes : Bytes) : Except (Option ServiceError) α → Prop
  | .ok _ => True
  | .error (some e) => DeclaresCheckpoint E statementBytes ∧ e.OfCheckpoint
  | .error none => False

/-- Over SQLite: the statement is new and passes the gate, and a row that its registration writes does not fit. -/
def Unstorable (now : Nat → Datetime) (statementBytes : Bytes) (s : SqlStore) : Prop :=
  ∃ sub status, prepare E cfg.payloadPolicy statementBytes = .ok sub ∧ (cachedStatement s.dicts sub).1 = none ∧
    Passes E cfg s.dicts sub.checkpointFields none status none ∧
    (2 ^ 63 ≤ s.logEntries.length ∨ Overflow E now s sub none)

variable {E cfg}

/-! ### The parser of the payload -/

private theorem parse_error {payload : Bytes} {e : ServiceError} (h : parseCheckpointPayload E (some payload) = .error e) :
    (((∃ message, E.jsonLoads payload = .error (.valueError message)) ∨ E.jsonLoads payload = .error .recursionError) ∧
      ¬ e.OfCheckpoint) ∨
    (∃ obj, E.jsonLoads payload = .ok (.obj obj) ∧ Json.get obj "artifact_type" = some (.str "mmr-checkpoint")) ∧
      e.OfCheckpoint := by
  unfold parseCheckpointPayload at h
  simp only at h
  split at h
  · cases h
  · cases h
  · rename_i message hload
    obtain rfl := Except.error.inj h
    exact .inl ⟨.inl ⟨message, hload⟩, id⟩
  · rename_i hload
    obtain rfl := Except.error.inj h
    exact .inl ⟨.inr hload, id⟩
  · rename_i obj hload
    split at h
    · rename_i htype
      cases hfields : checkpointFieldsOf obj with
      | error e' =>
        rw [hfields] at h
        obtain rfl := Except.error.inj h
        obtain ⟨message, rfl⟩ := checkpointFieldsOf_error hfields
        exact .inr ⟨⟨obj, hload, htype⟩, trivial⟩
      | ok fields =>
        rw [hfields] at h
        cases h
    · cases h
  · cases h

private theorem parse_undecodable {payload : Bytes}
    (h : (∃ message, E.jsonLoads payload = .error (.valueError message)) ∨ E.jsonLoads payload = .error .recursionError) :
    ∃ e, parseCheckpointPayload E (some payload) = .error e := by
  rcases h with ⟨message, h⟩ | h
  · exact ⟨.valueError message, by simp only [parseCheckpointPayload, h]⟩
  · exact ⟨.recursionError, by simp only [parseCheckpointPayload, h]⟩

private theorem declares_of_parse {payload : Bytes} {f : CheckpointFields}
    (h : parseCheckpointPayload E (some payload) = .ok (some f)) :
    ∃ obj, E.jsonLoads payload = .ok (.obj obj) ∧ Json.get obj "artifact_type" = some (.str "mmr-checkpoint") := by
  unfold parseCheckpointPayload at h
  simp only at h
  split at h
  any_goals cases h
  rename_i obj hload
  split at h
  · rename_i htype
    exact ⟨obj, hload, htype⟩
  · cases h

/-! ### The preparation of a statement -/

private theorem scheme_of_payload {statementBytes payload : Bytes} (h : embeddedPayload E statementBytes = some payload) :
    ∃ sign1, decodeCoseSign1 E statementBytes = some sign1 ∧ sign1.payload = some payload ∧
      (entryHashPreimage E statementBytes).2 = .sigStructure := by
  obtain ⟨sign1, hdecode, hpayload⟩ := Option.bind_eq_some_iff.1 h
  refine ⟨sign1, hdecode, hpayload, ?_⟩
  obtain ⟨protectedBstr, unprotected, payload', signature⟩ := sign1
  obtain rfl : payload' = some payload := hpayload
  simp only [entryHashPreimage, hdecode]

/-- What is not prepared is refused for its payload. -/
theorem prepare_error {policy : EmbeddedPayloadPolicy} {statementBytes : Bytes}
    (hsize : statementBytes.length ≤ maxStatementBytes) {e : ServiceError}
    (h : prepare E policy statementBytes = .error e) :
    (Undecodable E statementBytes ∧ ¬ e.OfCheckpoint) ∨ (DeclaresCheckpoint E statementBytes ∧ e.OfCheckpoint) := by
  rw [prepare, if_neg (by omega)] at h
  simp only at h
  split at h
  · cases h
  · rename_i sign1 hdecode
    cases hfields : (if (entryHashPreimage E statementBytes).2 = .sigStructure then
        parseCheckpointPayload E sign1.payload else .ok none) with
    | ok fields =>
      rw [hfields] at h
      cases h
    | error e' =>
      rw [hfields] at h
      obtain rfl := Except.error.inj h
      split at hfields
      · cases hpayload : sign1.payload with
        | none =>
          rw [hpayload] at hfields
          cases hfields
        | some payload =>
          have hembedded : embeddedPayload E statementBytes = some payload := by
            rw [embeddedPayload, hdecode]
            exact hpayload
          rw [hpayload] at hfields
          rcases parse_error hfields with ⟨hload, hnot⟩ | ⟨⟨obj, hload, htype⟩, hof⟩
          · exact .inl ⟨⟨payload, hembedded, hload⟩, hnot⟩
          · exact .inr ⟨⟨payload, obj, hembedded, hload, htype⟩, hof⟩
      · cases hfields

private theorem prepare_undecodable (policy : EmbeddedPayloadPolicy) {statementBytes : Bytes}
    (h : Undecodable E statementBytes) : ∃ e, prepare E policy statementBytes = .error e := by
  obtain ⟨payload, hembedded, hload⟩ := h
  obtain ⟨sign1, hdecode, hpayload, hscheme⟩ := scheme_of_payload hembedded
  obtain ⟨e, hparse⟩ := parse_undecodable hload
  unfold prepare
  split
  · exact ⟨_, rfl⟩
  · simp only [hdecode, hscheme, if_true, hpayload, hparse]
    exact ⟨e, rfl⟩

theorem not_undecodable_of_prepare {policy : EmbeddedPayloadPolicy} {statementBytes : Bytes} {sub : Submission}
    (hprep : prepare E policy statementBytes = .ok sub) : ¬ Undecodable E statementBytes := by
  intro hbad
  obtain ⟨e, herror⟩ := prepare_undecodable policy hbad
  rw [hprep] at herror
  cases herror

private theorem ends_of_prepare_error {α : Type} {policy : EmbeddedPayloadPolicy} {statementBytes : Bytes}
    (hsize : statementBytes.length ≤ maxStatementBytes) {e : ServiceError}
    (hprep : prepare E policy statementBytes = .error e) :
    EndsNamed E statementBytes (.error (some e) : Except _ α) ↔ ¬ Undecodable E statementBytes := by
  rcases prepare_error hsize hprep with ⟨hbad, hnot⟩ | ⟨hdeclares, hof⟩
  · exact iff_of_false (fun h => hnot h.2) (not_not.2 hbad)
  · refine iff_of_true ⟨hdeclares, hof⟩ ?_
    rintro ⟨payload, hembedded, hload⟩
    obtain ⟨payload', obj, hembedded', hload', -⟩ := hdeclares
    obtain rfl := Option.some.inj (hembedded.symm.trans hembedded')
    rw [hload'] at hload
    simp at hload

private theorem declares_of_prepare {policy : EmbeddedPayloadPolicy} {statementBytes : Bytes} {sub : Submission}
    {f : CheckpointFields} (hprep : prepare E policy statementBytes = .ok sub) (hf : sub.checkpointFields = some f) :
    DeclaresCheckpoint E statementBytes := by
  obtain ⟨sign1, hdecode, hparse⟩ := (prepare_ok E hprep).checkpointFields f hf
  cases hpayload : sign1.payload with
  | none =>
    rw [hpayload] at hparse
    cases hparse
  | some payload =>
    rw [hpayload] at hparse
    obtain ⟨obj, hload, htype⟩ := declares_of_parse hparse
    have hembedded : embeddedPayload E statementBytes = some payload := by
      rw [embeddedPayload, hdecode]
      exact hpayload
    exact ⟨payload, obj, hembedded, hload, htype⟩

/-! ### The gate and the rest -/

variable (E cfg)

private theorem refuseOrCount_throws (logId : String) (prev : CheckpointWitness) (message : String) :
    (refuseOrCount cfg logId prev message).Throws ServiceError.OfCheckpoint := by
  unfold refuseOrCount
  split
  · trivial
  · exact Prog.Throws.perform _

/-- The gate of a checkpoint payload refuses with an exception of its own. -/
private theorem linked_throws (fields : Option CheckpointFields) :
    (optionally fields (checkCheckpointConsistency E cfg)).Throws ServiceError.OfCheckpoint := by
  cases fields with
  | none => trivial
  | some f =>
    refine Prog.Throws.map (Prog.Throws.bind (Prog.Throws.perform _) ?_) _
    intro prev
    cases prev with
    | none => trivial
    | some prev =>
      refine Prog.Throws.bind ?_ ?_
      · unfold applyConsistencyProofPolicyLegacy
        split
        · trivial
        · exact refuseOrCount_throws cfg _ _ _
      · intro _
        split
        · trivial
        · trivial

private theorem commit_throws (now : Nat → Datetime) (sub : Submission) (accepted : Option Checkpoint) :
    (commitRegistration E now sub accepted).Throws fun e => ¬ e.OfCheckpoint := by
  have hwrite : ∀ {α : Type} (x : Option α) (f : α → ServiceM Unit), (∀ a, (f a).Throws fun e => ¬ e.OfCheckpoint) →
      (optionally x f).Throws fun e => ¬ e.OfCheckpoint := by
    intro α x f hf
    cases x with
    | none => trivial
    | some a => exact Prog.Throws.map (hf a) _
  refine Prog.Throws.bind (hwrite _ _ fun _ => Prog.Throws.perform _) fun _ => Prog.Throws.bind ?_ fun _ =>
    Prog.Throws.bind (hwrite _ _ fun _ => Prog.Throws.perform _) fun _ =>
    Prog.Throws.bind (hwrite _ _ fun _ => Prog.Throws.perform _) fun _ => trivial
  exact Prog.Throws.bind (Prog.Throws.perform _) fun _ => Prog.Throws.bind (Prog.Throws.perform _) fun _ =>
    Prog.Throws.bind (Prog.Throws.perform _) fun _ => trivial

/-- After the append nothing raises as a gate does. -/
private theorem settle_throws (log : List TransparencyLogEntry) (now : Nat → Datetime) (sub : Submission)
    (grade : Option String) (cp : Option Checkpoint) (status : Option WitnessStatus) (g : Option ContinuityGrade) :
    (settle E log now sub grade cp status g).Throws fun e => ¬ e.OfCheckpoint := by
  refine Prog.Throws.bind ?_ fun _ => Prog.Throws.bind (commit_throws E now sub _) fun _ => trivial
  refine Prog.Throws.bind (Prog.Throws.perform _) fun _ => ?_
  simp only
  split
  · exact id
  · exact Prog.Throws.bind (Prog.Throws.perform _) fun _ => trivial

/-- A statement that declares no checkpoint passes the gate. -/
private theorem declares_of_linked {statementBytes : Bytes} {sub : Submission}
    (hprep : prepare E cfg.payloadPolicy statementBytes = .ok sub) {s s' : MemoryStore} {e : ServiceError}
    (hlink : (optionally sub.checkpointFields (checkCheckpointConsistency E cfg)).run MemoryStore.exec s = (.error e, s')) :
    DeclaresCheckpoint E statementBytes ∧ e.OfCheckpoint := by
  refine ⟨?_, (linked_throws E cfg _).run_error (s := s) (by rw [hlink])⟩
  cases hfields : sub.checkpointFields with
  | none =>
    rw [hfields] at hlink
    cases hlink
  | some f => exact declares_of_prepare hprep hfields

/-! ### The dicts -/

/-- Over the dicts only an undecodable payload makes a registration fail otherwise than by name. -/
theorem memory_iff {s : MemoryStore} (hs : Indexed s.log) (now : Nat → Datetime) {statementBytes : Bytes}
    (hsize : statementBytes.length ≤ maxStatementBytes) (grade : Option String) :
    EndsNamed E statementBytes
      (((registerSignedStatementFull E cfg now statementBytes grade none).run MemoryStore.exec s).1.mapError some) ↔
        ¬ Undecodable E statementBytes := by
  cases hprep : prepare E cfg.payloadPolicy statementBytes with
  | error e =>
    have hrun : (registerSignedStatementFull E cfg now statementBytes grade none).run MemoryStore.exec s = (.error e, s) := by
      rw [registerSignedStatementFull, hprep]
      rfl
    rw [hrun]
    exact ends_of_prepare_error hsize hprep
  | ok sub =>
    refine iff_of_true ?_ (not_undecodable_of_prepare hprep)
    cases hfound : cachedStatement s sub with
    | mk found scheme =>
      cases found with
      | some found =>
        rw [register_cached_run E cfg hprep hfound]
        trivial
      | none =>
        obtain ⟨hsame, -⟩ := linked_run E cfg s sub.checkpointFields
        cases hlink : (optionally sub.checkpointFields (checkCheckpointConsistency E cfg)).run MemoryStore.exec s with
        | mk r s₁ =>
          cases r with
          | error e =>
            have hrun : (registerSignedStatementFull E cfg now statementBytes grade none).run MemoryStore.exec s =
                (.error e, s₁) := by
              rw [registerSignedStatementFull, hprep, Prog.run_bind_ok _ (Prog.run_ofExcept _ _ _), registerPrepared,
                Prog.run_bind_ok _ (lookupStatement_run s sub), hfound]
              exact Prog.run_bind_error _ hlink
            rw [hrun]
            exact declares_of_linked E cfg hprep hlink
          | ok status =>
            rw [hlink] at hsame
            have hmiss : (cachedStatement s sub).1 = none := by rw [hfound]
            have hindexed : Indexed s₁.log := by rwa [hsame.log]
            have hcontinued : (optionally none (checkCheckpointContinuity E cfg)).run MemoryStore.exec s₁ =
                (.ok none, s₁) := rfl
            rw [register_new_run E cfg hindexed hprep hmiss hlink hcontinued now grade]
            trivial

/-! ### The tables -/

/-- A new statement over a log that is full is refused by the append. -/
private theorem register_full_run {s : SqlStore} (hs : Indexed s.logEntries) {now : Nat → Datetime} {statementBytes : Bytes}
    {sub : Submission} (hprep : prepare E cfg.payloadPolicy statementBytes = .ok sub)
    (hmiss : (cachedStatement s.dicts sub).1 = none) {status : Option WitnessStatus}
    (hlink : (optionally sub.checkpointFields (checkCheckpointConsistency E cfg)).runRaising (SqliteStore.Raises E)
      (SqliteStore.exec E) s = (.ok status, s)) (hfull : 2 ^ 63 ≤ s.logEntries.length) (grade : Option String) :
    (registerSignedStatementFull E cfg now statementBytes grade none).runRaising (SqliteStore.Raises E)
      (SqliteStore.exec E) s = (.error none, s) := by
  have htables := overTables_sqlite E
  have happend := htables.run_appendLog hs logKindScitt sub.preimage (now 0) (now 1)
  simp only at happend
  rw [if_pos (raises_appendEntry.2 hfull)] at happend
  have hissue : (appendStatement E now sub grade (continuityAssertion E (now 0) none none)).runRaising
      (SqliteStore.Raises E) (SqliteStore.exec E) s = (.error none, s) := by
    rw [appendStatement_eq]
    exact Prog.runRaising_bind_error happend
  rw [registerSignedStatementFull, hprep, Prog.runRaising_bind_ok (Prog.runRaising_ofExcept _ _), registerPrepared,
    Prog.runRaising_bind_ok (htables.run_lookupStatement sub)]
  cases hfound : cachedStatement s.dicts sub with
  | mk found scheme =>
    rw [hfound] at hmiss
    obtain rfl : found = none := hmiss
    simp only
    have hcontinued : (optionally none (checkCheckpointContinuity E cfg)).runRaising (SqliteStore.Raises E)
        (SqliteStore.exec E) s = (.ok none, s) := rfl
    rw [registerNew, Prog.runRaising_bind_ok hlink, Prog.runRaising_bind_ok hcontinued]
    exact Prog.runRaising_bind_error hissue

private theorem sqlite_iff {s : SqlStore} (hs : Indexed s.logEntries) (now : Nat → Datetime) {statementBytes : Bytes}
    (hsize : statementBytes.length ≤ maxStatementBytes) (grade : Option String) :
    EndsNamed E statementBytes
      ((registerSignedStatementFull E cfg now statementBytes grade none).runRaising (SqliteStore.Raises E)
        (SqliteStore.exec E) s).1 ↔
      ¬ Undecodable E statementBytes ∧ ¬ Unstorable E cfg now statementBytes s := by
  have htables := overTables_sqlite E
  cases hprep : prepare E cfg.payloadPolicy statementBytes with
  | error e =>
    have hrun : (registerSignedStatementFull E cfg now statementBytes grade none).runRaising (SqliteStore.Raises E)
        (SqliteStore.exec E) s = (.error (some e), s) := by
      rw [registerSignedStatementFull, hprep]
      rfl
    have hfits : ¬ Unstorable E cfg now statementBytes s := by
      rintro ⟨sub, status, hprep', -⟩
      rw [hprep] at hprep'
      cases hprep'
    rw [hrun, ends_of_prepare_error hsize hprep]
    exact ⟨fun h => ⟨h, hfits⟩, fun h => h.1⟩
  | ok sub =>
    have hstored : Unstorable E cfg now statementBytes s ↔ (cachedStatement s.dicts sub).1 = none ∧
        ∃ status, Passes E cfg s.dicts sub.checkpointFields none status none ∧
          (2 ^ 63 ≤ s.logEntries.length ∨ Overflow E now s sub none) := by
      constructor
      · rintro ⟨sub', status, hprep', hmiss, hpasses, hover⟩
        obtain rfl := Except.ok.inj (hprep.symm.trans hprep')
        exact ⟨hmiss, status, hpasses, hover⟩
      · rintro ⟨hmiss, status, hpasses, hover⟩
        exact ⟨sub, status, hprep, hmiss, hpasses, hover⟩
    rw [and_iff_right (not_undecodable_of_prepare hprep), hstored]
    cases hfound : cachedStatement s.dicts sub with
    | mk found scheme =>
      cases found with
      | some cached =>
        have hrun : (registerSignedStatementFull E cfg now statementBytes grade none).runRaising (SqliteStore.Raises E)
            (SqliteStore.exec E) s = (.ok (cachedResult s.dicts sub cached scheme none), s) := by
          rw [registerSignedStatementFull, hprep, Prog.runRaising_bind_ok (Prog.runRaising_ofExcept _ _), registerPrepared,
            Prog.runRaising_bind_ok (htables.run_lookupStatement sub), hfound]
          rcases htables.run_alreadyRegistered (s := s) sub cached scheme none with hcached | ⟨c, hc, -⟩
          · exact hcached
          · cases hc
        rw [hrun]
        refine iff_of_true trivial ?_
        rintro ⟨hmiss, -⟩
        cases hmiss
      | none =>
        have hmiss : (cachedStatement s.dicts sub).1 = none := by rw [hfound]
        have hgate := htables.run_gate (linked_gates E cfg sub.checkpointFields) (m := s.dicts) (s := s) rfl
        cases hlink : (optionally sub.checkpointFields (checkCheckpointConsistency E cfg)).run MemoryStore.exec s.dicts with
        | mk r s₁ =>
          rw [hlink] at hgate
          cases r with
          | error e =>
            have hrun : (registerSignedStatementFull E cfg now statementBytes grade none).runRaising (SqliteStore.Raises E)
                (SqliteStore.exec E) s = (.error (some e), s) := by
              rw [registerSignedStatementFull, hprep, Prog.runRaising_bind_ok (Prog.runRaising_ofExcept _ _),
                registerPrepared, Prog.runRaising_bind_ok (htables.run_lookupStatement sub), hfound]
              exact Prog.runRaising_bind_error hgate
            rw [hrun]
            refine iff_of_true (declares_of_linked E cfg hprep hlink) ?_
            rintro ⟨-, status, hpasses, -⟩
            have hok := ((passes_iff E cfg).1 hpasses).1
            rw [hlink] at hok
            cases hok
          | ok status =>
            have hpasses : Passes E cfg s.dicts sub.checkpointFields none status none :=
              (passes_iff E cfg).2 ⟨by rw [hlink], rfl⟩
            by_cases hfull : 2 ^ 63 ≤ s.logEntries.length
            · rw [register_full_run E cfg hs hprep hmiss hgate hfull grade]
              exact iff_of_false id (not_not.2 ⟨rfl, status, hpasses, .inl hfull⟩)
            · have hlanded : Landed E cfg s sub none status none := ⟨hmiss, hpasses, by omega⟩
              rcases register_cases cfg hs now statementBytes grade none with ⟨-, hnot⟩ |
                ⟨sub', status', g, hprep', hlanded', hrun⟩
              · exact absurd hlanded (hnot sub status none hprep)
              · obtain rfl := Except.ok.inj (hprep.symm.trans hprep')
                obtain rfl : g = none := by
                  cases g with
                  | none => rfl
                  | some g => exact absurd hlanded'.passes.continued id
                obtain ⟨hreturns, -⟩ := settle_returns E now sub none status' none hs hlanded.room rfl grade
                rw [hrun]
                by_cases hover : Overflow E now s sub none
                · refine iff_of_false ?_ (not_not.2 ⟨rfl, status, hpasses, .inr hover⟩)
                  intro hends
                  obtain ⟨e, herror⟩ := Prog.not_returns.1 (mt hreturns.1 (not_not.2 hover))
                  rw [herror] at hends
                  cases e with
                  | none => exact hends
                  | some e =>
                    exact (settle_throws E s.logEntries now sub grade none status' none).error (by rw [herror]) hends.2
                · obtain ⟨result, s', hok⟩ := hreturns.2 hover
                  rw [hok]
                  refine iff_of_true trivial ?_
                  rintro ⟨-, status₂, -, hlate⟩
                  rcases hlate with hlate | hlate
                  · exact hfull hlate
                  · exact hover hlate

/-- `json.loads` refuses the payload for its digits. -/
private def digitsEnv (payload : Bytes) : Env :=
  { refEnv [(cborEncode (statementOver payload), statementOver payload)] [] (fun _ _ _ _ _ => false) with
    jsonLoads := fun b =>
      if b = payload then .error (.valueError "Exceeds the limit (4300 digits) for integer string conversion")
      else .error .jsonDecodeError }

private theorem digits_undecodable (payload : Bytes) :
    Undecodable (digitsEnv payload) (cborEncode (statementOver payload)) := by
  have hloads : (digitsEnv payload).cborLoads (cborEncode (statementOver payload)) = some (statementOver payload) :=
    List.lookup_cons_self
  have hembedded : embeddedPayload (digitsEnv payload) (cborEncode (statementOver payload)) = some payload := by
    rw [embeddedPayload, decodeCoseSign1, hloads]
    rfl
  exact ⟨payload, hembedded, .inl ⟨_, if_pos rfl⟩⟩

end CapsuleAnchor

import CapsuleAnchor.Interleaving
import CapsuleAnchor.Steps

/-!
# The calls a request makes

What the programs of the service do, whoever else uses the store in between.  `May` lists the conditions under which a
request makes a call, in terms of what it called before and was answered; `Counts` is what it relies on, that a later
read of the log is no shorter than an earlier one and contains the entry the request appended itself.  `Settled` is
what a request owes before it ends: every statement it appended is cached, every continuity assertion it signed is the
tip of its log.  `program_keeps`: every request keeps this contract.
-/

namespace CapsuleAnchor

open Interleaving

variable (E : Env) (cfg : Config)

/-- The calls of a request, with their answers. -/
abbrev CallTrail : Type := Trail Call.Ans

abbrev CachedRow : Type := Digest × CoseReceipt × Int × Nat

/-- The entries that were appended. -/
def appended (t : CallTrail) : List TransparencyLogEntry :=
  t.filterMap fun
    | ⟨.appendEntry entry, .ok _⟩ => some entry
    | _ => none

/-- The rows handed to the statement cache. -/
def filed (t : CallTrail) : List CachedRow :=
  t.filterMap fun
    | ⟨.putStatement entryHash receipt leafIndex treeSize, _⟩ => some (entryHash, receipt, leafIndex, treeSize)
    | _ => none

/-- The tips that were read. -/
def tipsRead (t : CallTrail) : List (String × Option CheckpointWitness) :=
  t.filterMap fun
    | ⟨.getCheckpointWitness logId, tip⟩ => some (logId, tip)
    | _ => none

/-- The tips that were written. -/
def tipsMoved (t : CallTrail) : List (String × CheckpointWitness) :=
  t.filterMap fun
    | ⟨.putCheckpointWitness logId witness, _⟩ => some (logId, witness)
    | _ => none

/-- The rows handed to the checkpoint records. -/
def surfaced (t : CallTrail) : List (String × Nat × CheckpointRecord) :=
  t.filterMap fun
    | ⟨.putCheckpointRecord logId mmrSize record, _⟩ => some (logId, mmrSize, record)
    | _ => none

section Projections

variable (t u : CallTrail)

@[simp] theorem appended_append : appended (t ++ u) = appended t ++ appended u := List.filterMap_append

@[simp] theorem filed_append : filed (t ++ u) = filed t ++ filed u := List.filterMap_append

@[simp] theorem tipsRead_append : tipsRead (t ++ u) = tipsRead t ++ tipsRead u := List.filterMap_append

@[simp] theorem tipsMoved_append : tipsMoved (t ++ u) = tipsMoved t ++ tipsMoved u := List.filterMap_append

@[simp] theorem surfaced_append : surfaced (t ++ u) = surfaced t ++ surfaced u := List.filterMap_append

end Projections

/-- Both laws of the decoders; under them a checkpoint's digest carries no checkpoint payload. -/
def DecodersBounded : Prop := CborBounded E ∧ JsonBounded E

/-- The request submits a statement that prepares to `sub`. -/
def Prepares (r : TimedRequest) (sub : Submission) : Prop :=
  ∃ statementBytes grade cp, r.2.submission E = some (statementBytes, grade, cp) ∧
    prepare E cfg.payloadPolicy statementBytes = .ok sub

/-! ### The contract -/

/-- `_append_log` built the entry from what `size` and `all_entries` answered. -/
def Built (t : CallTrail) (entry : TransparencyLogEntry) : Prop :=
  ∃ (n : Nat) (es : List TransparencyLogEntry) (kind : String) (payload : Bytes) (loggedAt signedAt : Datetime),
    ⟨.size, n⟩ ∈ t ∧ (n = 0 ∧ es = [] ∨ ⟨.allEntries, es⟩ ∈ t ∧ n ≤ es.length) ∧ entry.logIndex = n ∧
    (es.length = n → entry = nextEntry E es kind payload loggedAt signedAt)

/-- The row is the receipt of the entry the request appended, against the log it read afterwards. -/
def Covers (t : CallTrail) (row : CachedRow) : Prop :=
  ∃ (entry : TransparencyLogEntry) (es : List TransparencyLogEntry) (i : Nat) (loggedAt : Datetime)
    (grade : Option String) (continuity : Option ContinuityAssertion),
    appended t = [entry] ∧ entry.kind = logKindScitt ∧ entry.payloadHash = row.1 ∧ ⟨.entriesAfter 0, es⟩ ∈ t ∧
    entry.logIndex = i ∧ es[i]? = some entry ∧
    row.2 = (receiptOver E es i loggedAt grade continuity, (i : Int), es.length)

/-- The assertion starts at the tip the request read. -/
def Bridged (t : CallTrail) (a : ContinuityAssertion) : Prop :=
  ∃ prev, (a.logId, some prev) ∈ tipsRead t ∧ a.prevSize = prev.mmrSize ∧ a.prevSize < a.mmrSize

/-- The new tip extends the tip the request read, and is the one its assertion names. -/
def Advances (t : CallTrail) (logId : String) (witness : CheckpointWitness) : Prop :=
  (∃ tip, (logId, tip) ∈ tipsRead t ∧ ∀ prev, tip = some prev → prev.mmrSize < witness.mmrSize) ∧
    ∀ row ∈ filed t, ∀ a, row.2.1.continuity = some a → a.logId = logId ∧ a.mmrSize = witness.mmrSize

/-- The head is signed over a log that was read after its size. -/
def Headed (t : CallTrail) (sth : SignedTreeHead) : Prop :=
  ∃ (n : Nat) (es : List TransparencyLogEntry) (timestamp signedAt : Datetime), ⟨.size, n⟩ ∈ t ∧
    ⟨.entriesAfter 0, es⟩ ∈ t ∧ n ≤ es.length ∧ sth = signedTreeHead E n es timestamp signedAt

/-- When a request makes a call. -/
def May (r : TimedRequest) (t : CallTrail) : Call → Prop
  | .appendEntry entry => appended t = [] ∧ Built E t entry ∧
    (entry.kind = logKindScitt → ∃ sub, Prepares E cfg r sub ∧ entry.payloadHash = sub.entryHash ∧
      ⟨.getStatement sub.entryHash, none⟩ ∈ t)
  | .entriesAfter afterIndex => afterIndex = 0
  | .putStatement entryHash receipt leafIndex treeSize => filed t = [] ∧
    Covers E t (entryHash, receipt, leafIndex, treeSize) ∧
    (∃ sub, Prepares E cfg r sub ∧ entryHash = sub.entryHash ∧ ⟨.getStatement sub.entryHash, none⟩ ∈ t) ∧
    (∀ a, receipt.continuity = some a → Bridged t a) ∧ tipsMoved t = []
  | .pruneStatementsOlderThan _ => ∃ seconds, r.2 = .prune seconds
  | .getCheckpointWitness _ => DecodersBounded E → tipsRead t = []
  | .putCheckpointWitness logId witness => DecodersBounded E → tipsMoved t = [] ∧ Advances t logId witness
  | .putCheckpointRecord logId mmrSize record => surfaced t = [] ∧ ∃ cp result,
    r.2 = .witnessCheckpoint cp ∧ logId = cp.logId ∧ mmrSize = cp.mmrSize ∧ record = checkpointRecord cp result
  | .putSth sth => Headed E t sth
  | _ => True

/-- The answers a request relies on. -/
def Counts (t : CallTrail) : (c : Call) → c.Ans → Prop
  | .allEntries, es => ∀ n, ⟨.size, n⟩ ∈ t → n ≤ es.length
  | .entriesAfter _, es => (∀ n, ⟨.size, n⟩ ∈ t → n ≤ es.length) ∧
    ∀ entry ∈ appended t, ∃ i : Nat, entry.logIndex = i ∧ es[i]? = some entry
  | _, _ => True

/-- What a request owes before it ends. -/
structure Settled (t : CallTrail) : Prop where
  cached : ∀ entry ∈ appended t, entry.kind = logKindScitt → ∃ row ∈ filed t, row.1 = entry.payloadHash
  committed : ∀ row ∈ filed t, ∀ a, row.2.1.continuity = some a → ∃ witness, (a.logId, witness) ∈ tipsMoved t

/-- Nothing was appended or cached, and no tip was moved. -/
structure Clean (t : CallTrail) : Prop where
  appended : appended t = []
  filed : filed t = []
  tipsMoved : tipsMoved t = []

theorem Clean.settled {t : CallTrail} (h : Clean t) : Settled t where
  cached := by simp [h.appended]
  committed := by simp [h.filed]

theorem clean_nil : Clean [] := ⟨rfl, rfl, rfl⟩

theorem Clean.append {t u : CallTrail} (h : Clean t) (h' : Clean u) : Clean (t ++ u) where
  appended := by rw [appended_append, h.appended, h'.appended, List.append_nil]
  filed := by rw [filed_append, h.filed, h'.filed, List.append_nil]
  tipsMoved := by rw [tipsMoved_append, h.tipsMoved, h'.tipsMoved, List.append_nil]

/-- A clean trail that read no tip and recorded no checkpoint. -/
structure Quiet (t : CallTrail) : Prop extends Clean t where
  tipsRead : tipsRead t = []
  surfaced : surfaced t = []

theorem quiet_nil : Quiet [] := ⟨clean_nil, rfl, rfl⟩

theorem Quiet.append {t u : CallTrail} (h : Quiet t) (h' : Quiet u) : Quiet (t ++ u) where
  toClean := h.toClean.append h'.toClean
  tipsRead := by rw [tipsRead_append, h.tipsRead, h'.tipsRead, List.append_nil]
  surfaced := by rw [surfaced_append, h.surfaced, h'.surfaced, List.append_nil]

def serviceContract : Contract Call.Ans ServiceError TimedRequest where
  may := May E cfg
  valid := Counts
  fails := fun _ _ t => Settled t

/-- What a registration that returns has done. -/
def Registered (r : TimedRequest) (t : CallTrail) (result : StatementRegistration) : Prop :=
  ∃ sub, Prepares E cfg r sub ∧
    ((∃ k, result.entryHash = k ∧ (k = sub.entryHash ∨ sub.scheme = .sigStructure ∧ k = sub.legacyHash) ∧
        ⟨.getStatement k, some (result.receipt, result.leafIndex, result.treeSize)⟩ ∈ t) ∨
      result.entryHash = sub.entryHash ∧
        filed t = [(sub.entryHash, result.receipt, result.leafIndex, result.treeSize)])

/-- What a request that returns has done. -/
def Answers (r : TimedRequest) (reply : Reply) (t : CallTrail) : Prop :=
  Settled t ∧
  match reply with
  | .registered result => Registered E cfg r t result ∧
    surfaced t = (match r.2 with
      | .witnessCheckpoint cp => [(cp.logId, cp.mmrSize, checkpointRecord cp result)]
      | _ => [])
  | .sth sth => (∃ n : Nat, ⟨.size, n⟩ ∈ t ∧ n ≤ sth.treeSize) ∧
    (⟨.getLatestSth, some sth⟩ ∈ t ∨ ⟨.putSth sth, ()⟩ ∈ t) ∧ surfaced t = []
  | _ => surfaced t = []

/-! ### The programs -/

section Programs

variable {E cfg}
variable {r : TimedRequest} {t : CallTrail} {α β : Type}

theorem store_keeps {c : Call} {Q : c.Ans → CallTrail → Prop} (hmay : May E cfg r t c)
    (hQ : ∀ x, Counts t c x → Q x (t ++ [⟨c, x⟩])) : Keeps (serviceContract E cfg) r (store c) Q t :=
  Keeps.perform hmay hQ

theorem optionally_keeps {x : Option α} {f : α → ServiceM β} {Q : Option β → CallTrail → Prop}
    (hnone : x = none → Q none t)
    (hsome : ∀ a, x = some a → Keeps (serviceContract E cfg) r (f a) (fun b t => Q (some b) t) t) :
    Keeps (serviceContract E cfg) r (optionally x f) Q t := by
  cases x with
  | none => exact hnone rfl
  | some a => exact Keeps.map (hsome a rfl)

/-- The two lookups of a statement. -/
theorem lookupStatement_keeps {sub : Submission} {Q : Option (CoseReceipt × Int × Nat) × EntryHashScheme → CallTrail → Prop}
    (hlegacy : sub.scheme = .legacy → sub.legacyHash = sub.entryHash)
    (hfound : ∀ row scheme u, Quiet u →
      (∃ k, (if scheme = .legacy then sub.legacyHash else sub.entryHash) = k ∧
        (k = sub.entryHash ∨ sub.scheme = .sigStructure ∧ k = sub.legacyHash) ∧ ⟨.getStatement k, some row⟩ ∈ u) →
      Q (some row, scheme) (t ++ u))
    (hmiss : ∀ scheme u, Quiet u → ⟨.getStatement sub.entryHash, none⟩ ∈ u → Q (none, scheme) (t ++ u)) :
    Keeps (serviceContract E cfg) r (lookupStatement sub) Q t := by
  refine Keeps.bind (store_keeps trivial ?_)
  intro x _
  cases x with
  | some row =>
    refine hfound row sub.scheme [⟨.getStatement sub.entryHash, some row⟩] ⟨⟨rfl, rfl, rfl⟩, rfl, rfl⟩ ?_
    refine ⟨sub.entryHash, ?_, .inl rfl, by simp⟩
    split
    · exact hlegacy ‹_›
    · rfl
  | none =>
    simp only
    split
    · rename_i hne
      refine Keeps.bind (store_keeps trivial ?_)
      intro y _
      rw [List.append_assoc]
      cases y with
      | none => exact hmiss .legacy _ ⟨⟨rfl, rfl, rfl⟩, rfl, rfl⟩ (by simp)
      | some row =>
        refine hfound row .legacy _ ⟨⟨rfl, rfl, rfl⟩, rfl, rfl⟩ ⟨sub.legacyHash, if_pos rfl, .inr ⟨?_, rfl⟩, by simp⟩
        cases hscheme : sub.scheme with
        | sigStructure => rfl
        | legacy => exact absurd (hlegacy hscheme).symm hne
    · exact hmiss sub.scheme _ ⟨⟨rfl, rfl, rfl⟩, rfl, rfl⟩ (by simp)

private theorem refuseOrCount_keeps {logId message : String} {prev : CheckpointWitness} {Q : Unit → CallTrail → Prop}
    (hclean : Clean t) (hQ : ∀ u, Quiet u → cfg.consistencyProofPolicy ≠ .enforce → Q () (t ++ u)) :
    Keeps (serviceContract E cfg) r (refuseOrCount cfg logId prev message) Q t := by
  unfold refuseOrCount
  split
  · exact hclean.settled
  · rename_i hpolicy
    refine store_keeps trivial ?_
    intro x _
    exact hQ _ ⟨⟨rfl, rfl, rfl⟩, rfl, rfl⟩ hpolicy


private theorem applyLegacy_keeps {f : CheckpointFields} {prev : CheckpointWitness} {Q : Unit → CallTrail → Prop}
    (hclean : Clean t) (hQ : ∀ u, Quiet u → Q () (t ++ u)) :
    Keeps (serviceContract E cfg) r (applyConsistencyProofPolicyLegacy E cfg f prev) Q t := by
  unfold applyConsistencyProofPolicyLegacy
  split
  · have h := hQ [] quiet_nil
    rwa [List.append_nil] at h
  · exact refuseOrCount_keeps hclean (fun u hu _ => hQ u hu)

/-- The policy lets a checkpoint pass that it does not apply to, or that it does not enforce. -/
private theorem applyPolicy_keeps {cp : Checkpoint} {prev : CheckpointWitness} {Q : Unit → CallTrail → Prop}
    (hclean : Clean t) (hQ : ∀ u, Quiet u →
      (cfg.consistencyProofPolicy = .enforce → consistencyProofPolicyApplies cp = false) → Q () (t ++ u)) :
    Keeps (serviceContract E cfg) r (applyConsistencyProofPolicy E cfg cp prev) Q t := by
  have hpass : (cfg.consistencyProofPolicy = .enforce → consistencyProofPolicyApplies cp = false) → Q () t := by
    intro hpolicy
    have h := hQ [] quiet_nil hpolicy
    rwa [List.append_nil] at h
  have hcount : ∀ u, Quiet u → cfg.consistencyProofPolicy ≠ .enforce → Q () (t ++ u) :=
    fun u hu hpolicy => hQ u hu (fun henforce => absurd henforce hpolicy)
  unfold applyConsistencyProofPolicy
  split
  · rename_i hoff
    exact hpass (fun henforce => absurd (hoff.symm.trans henforce) (by decide))
  · split
    · rename_i happlies
      exact hpass (fun _ => by simpa using happlies)
    · simp only
      split
      · exact refuseOrCount_keeps hclean hcount
      · exact refuseOrCount_keeps hclean hcount

/-- A trail whose only call of note is one read of a tip. -/
structure ReadsTip (logId : String) (tip : Option CheckpointWitness) (t : CallTrail) : Prop extends Clean t where
  tipsRead : tipsRead t = [(logId, tip)]
  surfaced : surfaced t = []

private theorem ReadsTip.append {logId : String} {tip : Option CheckpointWitness} {t u : CallTrail}
    (h : ReadsTip logId tip t) (hu : Quiet u) : ReadsTip logId tip (t ++ u) where
  toClean := h.toClean.append hu.toClean
  tipsRead := by rw [tipsRead_append, h.tipsRead, hu.tipsRead, List.append_nil]
  surfaced := by rw [surfaced_append, h.surfaced, hu.surfaced, List.append_nil]

private theorem readsTip (logId : String) (tip : Option CheckpointWitness) :
    ReadsTip logId tip [⟨.getCheckpointWitness logId, tip⟩] := ⟨⟨rfl, rfl, rfl⟩, rfl, rfl⟩

theorem checkCheckpointConsistency_keeps {f : CheckpointFields} {Q : WitnessStatus → CallTrail → Prop} (hclean : Clean t)
    (htips : DecodersBounded E → tipsRead t = [])
    (hQ : ∀ status tip u, ReadsTip f.logId tip u → Linkage f tip status → Q status (t ++ u)) :
    Keeps (serviceContract E cfg) r (checkCheckpointConsistency E cfg f) Q t := by
  refine Keeps.bind (store_keeps htips ?_)
  intro tip _
  have hread := readsTip f.logId tip
  cases tip with
  | none => exact hQ .firstSeen none _ hread .firstSeen
  | some prev =>
    refine Keeps.bind (applyLegacy_keeps (hclean.append hread.toClean) ?_)
    intro u hu
    split
    · exact ((hclean.append hread.toClean).append hu.toClean).settled
    · rename_i hlink
      rw [List.append_assoc]
      have hgate : f.prevSize = prev.mmrSize ∧ prev.mmrSize < f.mmrSize := by omega
      exact hQ .witnessed (some prev) _ (hread.append hu) (.witnessed prev hgate.1 hgate.2)

theorem checkCheckpointContinuity_keeps {cp : Checkpoint} {Q : ContinuityGrade → CallTrail → Prop} (hclean : Clean t)
    (htips : DecodersBounded E → tipsRead t = [])
    (hQ : ∀ grade tip u, ReadsTip cp.logId tip u → Continuity E cfg cp tip grade → Q grade (t ++ u)) :
    Keeps (serviceContract E cfg) r (checkCheckpointContinuity E cfg cp) Q t := by
  refine Keeps.bind (store_keeps htips ?_)
  intro tip _
  have hread := readsTip cp.logId tip
  cases tip with
  | none => exact hQ .firstSeen none _ hread .firstSeen
  | some prev =>
    simp only
    cases hproof : cp.consistencyProof.join with
    | none =>
      refine Keeps.bind (applyPolicy_keeps (hclean.append hread.toClean) ?_)
      intro u hu hpolicy
      have h := hQ .registered (some prev) _ (hread.append hu) (.registered prev hproof hpolicy)
      rw [← List.append_assoc] at h
      exact h
    | some proof =>
      simp only
      split
      · exact (hclean.append hread.toClean).settled
      · rename_i hmatch
        split
        · exact (hclean.append hread.toClean).settled
        · rename_i hverify
          rw [not_or, not_not, not_not] at hmatch
          exact hQ .witnessed (some prev) _ hread
            (.witnessed prev proof (Option.join_eq_some_iff.1 hproof) hmatch.1 hmatch.2 (by simpa using hverify))

/-- A trail whose only call of note is one append. -/
structure Appends (entry : TransparencyLogEntry) (t : CallTrail) : Prop where
  appended : appended t = [entry]
  filed : filed t = []
  tipsMoved : tipsMoved t = []
  tipsRead : tipsRead t = []
  surfaced : surfaced t = []

/-- The entry `_append_log` writes at index `n` with the head `prev`. -/
private def entryAt (E : Env) (n : Nat) (kind : String) (payload : Bytes) (loggedAt signedAt : Datetime)
    (prev : Option String) : TransparencyLogEntry :=
  { logIndex := n, loggedAt, kind, payloadHash := E.sha256 payload, prevLogHash := prev
    logSignature := attest E (treeHeadPayload n (E.sha256 payload) prev) signedAt }

private theorem appendEntry_keeps {n : Nat} {es : List TransparencyLogEntry} {kind : String} {payload : Bytes}
    {loggedAt signedAt : Datetime} {prev : Option String} {Q : TransparencyLogEntry → CallTrail → Prop}
    (hclean : Clean t) (hsize : ⟨.size, n⟩ ∈ t) (hread : n = 0 ∧ es = [] ∨ ⟨.allEntries, es⟩ ∈ t ∧ n ≤ es.length)
    (hprev : prev = headBefore E none es es.length)
    (hmay : kind = logKindScitt → ∃ sub, Prepares E cfg r sub ∧ E.sha256 payload = sub.entryHash ∧
      ⟨.getStatement sub.entryHash, none⟩ ∈ t)
    (hQ : ∀ entry u, Appends entry u → entry.kind = kind → entry.payloadHash = E.sha256 payload → Q entry (t ++ u)) :
    Keeps (serviceContract E cfg) r (orRaise (store (.appendEntry (entryAt E n kind payload loggedAt signedAt prev))) >>=
      fun _ => pure (entryAt E n kind payload loggedAt signedAt prev)) Q t := by
  have hbuilt : Built E t (entryAt E n kind payload loggedAt signedAt prev) := by
    refine ⟨n, es, kind, payload, loggedAt, signedAt, hsize, hread, rfl, ?_⟩
    intro hlen
    simp only [entryAt, nextEntry, hprev, hlen]
  refine Keeps.bind (Keeps.bind (store_keeps ⟨hclean.appended, hbuilt, hmay⟩ ?_))
  intro x _
  cases x with
  | error e => exact (hclean.append ⟨rfl, rfl, rfl⟩).settled
  | ok _ => exact hQ _ _ ⟨rfl, rfl, rfl, rfl, rfl⟩ rfl rfl

theorem appendLog_keeps {kind : String} {payload : Bytes} {loggedAt signedAt : Datetime}
    {Q : TransparencyLogEntry → CallTrail → Prop} (hclean : Clean t)
    (hmay : kind = logKindScitt → ∃ sub, Prepares E cfg r sub ∧ E.sha256 payload = sub.entryHash ∧
      ⟨.getStatement sub.entryHash, none⟩ ∈ t)
    (hQ : ∀ entry u, Appends entry u → entry.kind = kind → entry.payloadHash = E.sha256 payload → Q entry (t ++ u)) :
    Keeps (serviceContract E cfg) r (appendLog E kind payload loggedAt signedAt) Q t := by
  -- the reads before the append leave everything the lemma speaks of as it is
  have hmore : ∀ u, Quiet u → ∀ entry v, Appends entry v → Appends entry (u ++ v) := by
    rintro u hu entry v ⟨h₁, h₂, h₃, h₄, h₅⟩
    exact ⟨by simp [h₁, hu.appended], by simp [h₂, hu.filed], by simp [h₃, hu.tipsMoved], by simp [h₄, hu.tipsRead],
      by simp [h₅, hu.surfaced]⟩
  have happend : ∀ (n : Nat) (es : List TransparencyLogEntry) (prev : Option String) u, Quiet u → ⟨.size, n⟩ ∈ t ++ u →
      (n = 0 ∧ es = [] ∨ ⟨.allEntries, es⟩ ∈ t ++ u ∧ n ≤ es.length) → prev = headBefore E none es es.length →
      Keeps (serviceContract E cfg) r (orRaise (store (.appendEntry (entryAt E n kind payload loggedAt signedAt prev))) >>=
        fun _ => pure (entryAt E n kind payload loggedAt signedAt prev)) Q (t ++ u) := by
    intro n es prev u hu hsize hread hprev
    refine appendEntry_keeps (hclean.append hu.toClean) hsize hread hprev ?_ ?_
    · intro hkind
      obtain ⟨sub, hsub, hkey, hmiss⟩ := hmay hkind
      exact ⟨sub, hsub, hkey, List.mem_append_left _ hmiss⟩
    · intro entry v hv
      rw [List.append_assoc]
      exact hQ entry _ (hmore u hu entry v hv)
  refine Keeps.bind (store_keeps trivial ?_)
  intro n _
  refine Keeps.bind ?_
  unfold prevLogHash
  split
  · refine Keeps.map (Keeps.bind (store_keeps trivial ?_))
    intro es hcounts
    have hn : n ≤ es.length := hcounts n (by simp)
    cases hlast : es.getLast? with
    | none => exact (hclean.append (⟨rfl, rfl, rfl⟩ : Clean [_])).append (⟨rfl, rfl, rfl⟩ : Clean [_]) |>.settled
    | some last =>
      simp only
      have hprev : some (entryHeadHash E last).hex = headBefore E none es es.length := by
        rcases List.eq_nil_or_concat es with rfl | ⟨l, e, rfl⟩
        · cases hlast
        · obtain rfl : e = last := by simpa using hlast
          simp [headBefore]
      have h := happend n es _ [⟨.size, n⟩, ⟨.allEntries, es⟩] ⟨⟨rfl, rfl, rfl⟩, rfl, rfl⟩ (by simp) (.inr ⟨by simp, hn⟩)
        hprev
      rw [List.append_cons] at h
      exact h
  · rename_i hpos
    exact happend n [] none _ ⟨⟨rfl, rfl, rfl⟩, rfl, rfl⟩ (by simp) (.inl ⟨by omega, rfl⟩) rfl

/-- A trail that appended one statement and cached one row for it. -/
structure Files (entryHash : Digest) (row : CoseReceipt × Int × Nat) (t : CallTrail) : Prop where
  appended : ∃ entry, appended t = [entry] ∧ entry.payloadHash = entryHash
  filed : filed t = [(entryHash, row)]
  tipsMoved : tipsMoved t = []
  tipsRead : tipsRead t = []
  surfaced : surfaced t = []

private theorem Bridged.append {a : ContinuityAssertion} {t : CallTrail} (h : Bridged t a) (u : CallTrail) :
    Bridged (t ++ u) a := by
  obtain ⟨prev, hprev, hsize⟩ := h
  exact ⟨prev, by simp [hprev], hsize⟩

theorem appendStatement_keeps {now : Nat → Datetime} {sub : Submission} {grade : Option String}
    {continuity : Option ContinuityAssertion} {Q : CoseReceipt × Int × Nat → CallTrail → Prop} (hclean : Clean t)
    (hsub : Prepares E cfg r sub) (hkey : sub.entryHash = E.sha256 sub.preimage)
    (hmiss : ⟨.getStatement sub.entryHash, none⟩ ∈ t) (hbridge : ∀ a, continuity = some a → Bridged t a)
    (hQ : ∀ row u, Files sub.entryHash row u → row.1.continuity = continuity → Q row (t ++ u)) :
    Keeps (serviceContract E cfg) r (appendStatement E now sub grade continuity) Q t := by
  refine Keeps.bind (appendLog_keeps hclean (fun _ => ⟨sub, hsub, hkey.symm, hmiss⟩) ?_)
  intro entry u hu hkind hhash
  have happended : appended (t ++ u) = [entry] := by rw [appended_append, hclean.appended, hu.appended, List.nil_append]
  refine Keeps.bind (store_keeps rfl ?_)
  intro es hcounts
  -- the log that is read contains the entry
  obtain ⟨i, hindex, hentry⟩ := hcounts.2 entry (by rw [happended]; exact List.mem_singleton_self entry)
  have hi : i < es.length := (List.getElem?_eq_some_iff.1 hentry).1
  have hpath : inclusionAuditPath E.sha256 entry.logIndex (ctLeaves E es) =
      some (auditPath E.sha256 i (ctLeaves E es)) := by
    rw [hindex, inclusionAuditPath, if_pos (by simp; omega), Int.toNat_natCast]
  simp only [hpath]
  have hreceipt : buildCoseReceipt E (ctLeaves E es).length entry.logIndex (auditPath E.sha256 i (ctLeaves E es))
      (merkleTreeHash E.sha256 (ctLeaves E es)) (some (now 0).timestamp) grade continuity =
        receiptOver E es i (now 0) grade continuity := by rw [hindex, receiptOver]
  rw [hreceipt, hindex, length_ctLeaves]
  refine Keeps.bind (store_keeps ⟨?_, ?_, ?_, ?_, ?_⟩ ?_)
  · rw [filed_append, filed_append, hclean.filed, hu.filed]
    rfl
  · refine ⟨entry, es, i, now 0, grade, continuity, ?_, hkind, hhash.trans hkey.symm, by simp, hindex, hentry, rfl⟩
    rw [appended_append, happended]
    rfl
  · exact ⟨sub, hsub, rfl, by simp [hmiss]⟩
  · intro a ha
    rw [List.append_assoc]
    exact (hbridge a ha).append _
  · rw [tipsMoved_append, tipsMoved_append, hclean.tipsMoved, hu.tipsMoved]
    rfl
  · intro x _
    rw [List.append_assoc, List.append_assoc]
    refine hQ _ _ ⟨⟨entry, ?_, hhash.trans hkey.symm⟩, ?_, ?_, ?_, ?_⟩ rfl
    · rw [appended_append, hu.appended]
      rfl
    · rw [filed_append, hu.filed]
      rfl
    · rw [tipsMoved_append, hu.tipsMoved]
      rfl
    · rw [tipsRead_append, hu.tipsRead]
      rfl
    · rw [surfaced_append, hu.surfaced]
      rfl

theorem signAndPersistSth_keeps {timestamp signedAt : Datetime} {Q : SignedTreeHead → CallTrail → Prop}
    (hQ : ∀ (sth : SignedTreeHead) (n : Nat) u, Quiet u → ⟨.size, n⟩ ∈ u → n ≤ sth.treeSize → ⟨.putSth sth, ()⟩ ∈ u →
      Q sth (t ++ u)) : Keeps (serviceContract E cfg) r (signAndPersistSth E timestamp signedAt) Q t := by
  refine Keeps.bind (store_keeps trivial ?_)
  intro n _
  refine Keeps.bind (store_keeps rfl ?_)
  intro es hcounts
  have hn : n ≤ es.length := hcounts.1 n (by simp)
  refine Keeps.bind (store_keeps ⟨n, es, timestamp, signedAt, by simp, by simp, hn, rfl⟩ ?_)
  intro x _
  rw [List.append_assoc, List.append_assoc]
  exact hQ _ n _ ⟨⟨rfl, rfl, rfl⟩, rfl, rfl⟩ (by simp) (Nat.le_refl _) (by simp)

private theorem Advances.append {t : CallTrail} {logId : String} {witness : CheckpointWitness}
    (h : Advances t logId witness) {u : CallTrail} (hu : filed u = []) : Advances (t ++ u) logId witness := by
  obtain ⟨⟨tip, htip, hgrow⟩, hrow⟩ := h
  refine ⟨⟨tip, by simp [htip], hgrow⟩, ?_⟩
  rw [filed_append, hu, List.append_nil]
  exact hrow

/-- A trail that commits a registration: it writes tips and nothing else of note. -/
structure Commits (accepted : Option Checkpoint) (t : CallTrail) : Prop where
  appended : appended t = []
  filed : filed t = []
  surfaced : surfaced t = []
  tipsMoved : ∀ cp, accepted = some cp → (cp.logId, cp.witness) ∈ tipsMoved t

theorem commitRegistration_keeps {now : Nat → Datetime} {sub : Submission} {accepted : Option Checkpoint}
    {Q : Unit → CallTrail → Prop} (hmoved : tipsMoved t = [])
    (hfields : ∀ f, sub.checkpointFields = some f → DecodersBounded E → Advances t f.logId f.witness ∧ accepted = none)
    (haccepted : ∀ cp, accepted = some cp → DecodersBounded E → Advances t cp.logId cp.witness)
    (hQ : ∀ u, Commits accepted u → Q () (t ++ u)) :
    Keeps (serviceContract E cfg) r (commitRegistration E now sub accepted) Q t := by
  -- the two writes of tips, after calls that write nothing of note
  have htips : ∀ u, Quiet u → Keeps (serviceContract E cfg) r (do
      let _ ← optionally sub.checkpointFields fun fields => store (.putCheckpointWitness fields.logId fields.witness)
      let _ ← optionally accepted fun cp => store (.putCheckpointWitness cp.logId cp.witness)
      return ()) Q (t ++ u) := by
    intro u hu
    have hmoved' : tipsMoved (t ++ u) = [] := by rw [tipsMoved_append, hmoved, hu.tipsMoved, List.append_nil]
    refine Keeps.bind (optionally_keeps ?_ ?_)
    · intro _
      refine Keeps.bind (optionally_keeps ?_ ?_)
      · intro hnone
        exact hQ u ⟨hu.appended, hu.filed, hu.surfaced, by simp [hnone]⟩
      · intro cp hcp
        refine store_keeps (fun hbounded => ⟨hmoved', (haccepted cp hcp hbounded).append hu.filed⟩) ?_
        intro x _
        rw [List.append_assoc]
        refine hQ _ ⟨?_, ?_, ?_, ?_⟩
        · rw [appended_append, hu.appended]
          rfl
        · rw [filed_append, hu.filed]
          rfl
        · rw [surfaced_append, hu.surfaced]
          rfl
        · rintro cp' hcp'
          obtain rfl : cp = cp' := Option.some.inj (hcp.symm.trans hcp')
          rw [tipsMoved_append]
          exact List.mem_append_right _ (List.mem_singleton_self _)
    · intro f hf
      refine store_keeps (fun hbounded => ⟨hmoved', (hfields f hf hbounded).1.append hu.filed⟩) ?_
      intro x _
      refine Keeps.bind (optionally_keeps ?_ ?_)
      · intro hnone
        rw [List.append_assoc]
        refine hQ _ ⟨?_, ?_, ?_, by simp [hnone]⟩
        · rw [appended_append, hu.appended]
          rfl
        · rw [filed_append, hu.filed]
          rfl
        · rw [surfaced_append, hu.surfaced]
          rfl
      · intro cp hcp
        -- a checkpoint's digest carries no payload of its own
        have hone : DecodersBounded E → False := by
          intro hbounded
          have hnone := (hfields f hf hbounded).2
          rw [hcp] at hnone
          cases hnone
        refine store_keeps (fun hbounded => (hone hbounded).elim) ?_
        intro y _
        rw [List.append_assoc, List.append_assoc]
        refine hQ _ ⟨?_, ?_, ?_, ?_⟩
        · rw [appended_append, hu.appended]
          rfl
        · rw [filed_append, hu.filed]
          rfl
        · rw [surfaced_append, hu.surfaced]
          rfl
        · rintro cp' hcp'
          obtain rfl : cp = cp' := Option.some.inj (hcp.symm.trans hcp')
          rw [tipsMoved_append]
          exact List.mem_append_right _ (List.mem_cons_of_mem _ (List.mem_singleton_self _))
  have hsth : ∀ u, Quiet u → Keeps (serviceContract E cfg) r (do
      let _ ← signAndPersistSth E (now 3) (now 4)
      let _ ← optionally sub.checkpointFields fun fields => store (.putCheckpointWitness fields.logId fields.witness)
      let _ ← optionally accepted fun cp => store (.putCheckpointWitness cp.logId cp.witness)
      return ()) Q (t ++ u) := by
    intro u hu
    refine Keeps.bind (signAndPersistSth_keeps ?_)
    intro sth n v hv _ _ _
    rw [List.append_assoc]
    exact htips _ (hu.append hv)
  refine Keeps.bind (optionally_keeps ?_ ?_)
  · intro _
    have h := hsth [] quiet_nil
    rwa [List.append_nil] at h
  · intro subject _
    refine store_keeps trivial ?_
    intro x _
    exact hsth _ ⟨⟨rfl, rfl, rfl⟩, rfl, rfl⟩

private theorem continuityAssertion_some {loggedAt : Datetime} {cp : Option Checkpoint} {g : Option ContinuityGrade}
    {a : ContinuityAssertion} (h : continuityAssertion E loggedAt cp g = some a) :
    ∃ cp', cp = some cp' ∧ g = some .witnessed ∧ a.logId = cp'.logId ∧ a.prevSize = cp'.prevSize ∧
      a.mmrSize = cp'.mmrSize := by
  unfold continuityAssertion at h
  split at h
  · cases h
  · rename_i cp'
    split at h
    · rename_i hg
      obtain rfl := Option.some.inj h
      exact ⟨cp', rfl, hg, rfl, rfl, rfl⟩
    · cases h

/-- The gates let the statement through, given the tips that were read. -/
structure Cleared (E : Env) (cfg : Config) (sub : Submission) (cp : Option Checkpoint) (g : Option ContinuityGrade)
    (t : CallTrail) : Prop where
  linked : ∀ f, sub.checkpointFields = some f → ∃ tip status, (f.logId, tip) ∈ tipsRead t ∧ Linkage f tip status
  continued : ∀ cp', cp = some cp' → ∃ tip grade, g = some grade ∧ (cp'.logId, tip) ∈ tipsRead t ∧
    Continuity E cfg cp' tip grade

private theorem Cleared.bridged {sub : Submission} {cp : Option Checkpoint} {g : Option ContinuityGrade}
    (h : Cleared E cfg sub cp g t) {loggedAt : Datetime} {a : ContinuityAssertion}
    (ha : continuityAssertion E loggedAt cp g = some a) : Bridged t a := by
  obtain ⟨cp', hcp, hg, hid, hprev, hsize⟩ := continuityAssertion_some ha
  obtain ⟨tip, grade, hgrade, htip, hcont⟩ := h.continued cp' hcp
  obtain rfl : .witnessed = grade := Option.some.inj (hg.symm.trans hgrade)
  cases hcont with
  | witnessed prev proof hproof hchain hroot hverify =>
    refine ⟨prev, by rw [hid]; exact htip, hprev.trans hchain, ?_⟩
    rw [hprev, hsize]
    exact cp'.prevSize_lt

/-- The tip of a checkpoint that is accepted extends the one that was read. -/
private theorem Cleared.grows {sub : Submission} {cp : Option Checkpoint} {g : Option ContinuityGrade}
    (h : Cleared E cfg sub cp g t) {cp' : Checkpoint} (haccepted : acceptedCheckpoint cp g = some cp') :
    cp = some cp' ∧ ∃ tip, (cp'.logId, tip) ∈ tipsRead t ∧ ∀ prev, tip = some prev → prev.mmrSize < cp'.mmrSize := by
  unfold acceptedCheckpoint at haccepted
  split at haccepted
  · rename_i hg
    obtain ⟨tip, grade, hgrade, htip, hcont⟩ := h.continued cp' haccepted
    refine ⟨haccepted, tip, htip, ?_⟩
    rintro prev rfl
    cases hcont with
    | registered _ hproof hpolicy => simp [hgrade] at hg
    | witnessed _ proof hproof hchain hroot hverify =>
      rw [← hchain]
      exact cp'.prevSize_lt
  · cases haccepted

/-- From the append to the end. -/
private theorem issue_keeps {now : Nat → Datetime} {sub : Submission} {grade : Option String} {cp : Option Checkpoint}
    {g : Option ContinuityGrade} {f : CoseReceipt × Int × Nat → β} {Q : β → CallTrail → Prop} (hclean : Clean t)
    (hcleared : Cleared E cfg sub cp g t) (hsub : Prepares E cfg r sub) (hkey : sub.entryHash = E.sha256 sub.preimage)
    (hmiss : ⟨.getStatement sub.entryHash, none⟩ ∈ t)
    (hone : DecodersBounded E → sub.checkpointFields = none ∨ cp = none)
    (hQ : ∀ row u, Settled (t ++ u) → surfaced u = [] → filed (t ++ u) = [(sub.entryHash, row)] → Q (f row) (t ++ u)) :
    Keeps (serviceContract E cfg) r (do
      let issued ← appendStatement E now sub grade (continuityAssertion E (now 0) cp g)
      commitRegistration E now sub (acceptedCheckpoint cp g)
      return f issued) Q t := by
  refine Keeps.bind (appendStatement_keeps hclean hsub hkey hmiss (fun a ha => hcleared.bridged ha) ?_)
  intro row u hu hcontinuity
  have hfiled : filed (t ++ u) = [(sub.entryHash, row)] := by rw [filed_append, hclean.filed, hu.filed, List.nil_append]
  have hmoved : tipsMoved (t ++ u) = [] := by rw [tipsMoved_append, hclean.tipsMoved, hu.tipsMoved, List.append_nil]
  have hread : ∀ x, x ∈ tipsRead t → x ∈ tipsRead (t ++ u) := by
    intro x hx
    rw [tipsRead_append]
    exact List.mem_append_left _ hx
  -- the receipt's assertion names the checkpoint whose tip is to be written
  have hassertion : ∀ row' ∈ filed (t ++ u), ∀ a, row'.2.1.continuity = some a →
      ∃ cp', cp = some cp' ∧ g = some .witnessed ∧ a.logId = cp'.logId ∧ a.mmrSize = cp'.mmrSize := by
    intro row' hrow' a ha
    rw [hfiled, List.mem_singleton] at hrow'
    subst hrow'
    rw [hcontinuity] at ha
    obtain ⟨cp', hcp, hg, hid, -, hsize⟩ := continuityAssertion_some ha
    exact ⟨cp', hcp, hg, hid, hsize⟩
  refine Keeps.bind (commitRegistration_keeps hmoved ?_ ?_ ?_)
  · intro f hf hbounded
    have hcp : cp = none := by
      rcases hone hbounded with hnone | hnone
      · rw [hf] at hnone
        cases hnone
      · exact hnone
    obtain ⟨tip, status, htip, hlink⟩ := hcleared.linked f hf
    refine ⟨⟨⟨tip, hread _ htip, ?_⟩, ?_⟩, ?_⟩
    · rintro prev rfl
      cases hlink with
      | witnessed _ hchain hgrow => exact hgrow
    · intro row' hrow' a ha
      obtain ⟨cp', hcp', -⟩ := hassertion row' hrow' a ha
      rw [hcp] at hcp'
      cases hcp'
    · rw [hcp, acceptedCheckpoint]
      split <;> rfl
  · intro cp' haccepted _
    obtain ⟨hcp, tip, htip, hgrow⟩ := hcleared.grows haccepted
    refine ⟨⟨tip, hread _ htip, hgrow⟩, ?_⟩
    intro row' hrow' a ha
    obtain ⟨cp'', hcp'', -, hid, hsize⟩ := hassertion row' hrow' a ha
    obtain rfl : cp' = cp'' := Option.some.inj (hcp.symm.trans hcp'')
    exact ⟨hid, hsize⟩
  · intro v hv
    have hfiled' : filed (t ++ u ++ v) = [(sub.entryHash, row)] := by rw [filed_append, hfiled, hv.filed, List.append_nil]
    have hsettled : Settled (t ++ u ++ v) := by
      constructor
      · intro entry hentry _
        obtain ⟨entry', happended, hhash⟩ := hu.appended
        rw [appended_append, appended_append, hclean.appended, happended, hv.appended] at hentry
        obtain rfl : entry = entry' := by simpa using hentry
        exact ⟨(sub.entryHash, row), by rw [hfiled']; exact List.mem_singleton_self _, hhash.symm⟩
      · intro row' hrow' a ha
        rw [hfiled', ← hfiled] at hrow'
        obtain ⟨cp', hcp', hg, hid, -⟩ := hassertion row' hrow' a ha
        have haccepted : acceptedCheckpoint cp g = some cp' := by
          rw [acceptedCheckpoint, if_pos (.inr hg), hcp']
        refine ⟨cp'.witness, ?_⟩
        rw [hid, tipsMoved_append]
        exact List.mem_append_right _ (hv.tipsMoved cp' haccepted)
    rw [List.append_assoc] at hfiled' hsettled ⊢
    refine hQ row (u ++ v) hsettled ?_ hfiled'
    rw [surfaced_append, hu.surfaced, hv.surfaced, List.append_nil]

/-- After a miss: the gates, then the registration. -/
private theorem registerNew_keeps {now : Nat → Datetime} {sub : Submission} {grade : Option String} {cp : Option Checkpoint}
    {Q : StatementRegistration → CallTrail → Prop} (hquiet : Quiet t) (hsub : Prepares E cfg r sub)
    (hkey : sub.entryHash = E.sha256 sub.preimage) (hmiss : ⟨.getStatement sub.entryHash, none⟩ ∈ t)
    (hone : DecodersBounded E → sub.checkpointFields = none ∨ cp = none)
    (hQ : ∀ result u, Settled (t ++ u) → surfaced u = [] → result.entryHash = sub.entryHash →
      filed (t ++ u) = [(sub.entryHash, result.receipt, result.leafIndex, result.treeSize)] → Q result (t ++ u)) :
    Keeps (serviceContract E cfg) r (registerNew E cfg now sub grade cp) Q t := by
  have hclean := hquiet.toClean
  have hissue : ∀ (status : Option WitnessStatus) g u, Clean u → surfaced u = [] → Cleared E cfg sub cp g (t ++ u) →
      Keeps (serviceContract E cfg) r (do
        let issued ← appendStatement E now sub grade (continuityAssertion E (now 0) cp g)
        commitRegistration E now sub (acceptedCheckpoint cp g)
        return ({ receipt := issued.1, entryHash := sub.entryHash, leafIndex := issued.2.1, treeSize := issued.2.2
                  entryHashScheme := sub.scheme
                  checkpointWitness := sub.checkpointFields.bind fun fields => status.map fun st => (fields, st)
                  subject := sub.subject, continuityGrade := g } : StatementRegistration)) Q (t ++ u) := by
    intro status g u hu hsurfaced hcleared
    refine issue_keeps (hclean.append hu) hcleared hsub hkey (List.mem_append_left _ hmiss) hone ?_
    intro row v hsettled hv hfiled
    rw [List.append_assoc] at hsettled hfiled ⊢
    refine hQ _ (u ++ v) hsettled ?_ rfl hfiled
    rw [surfaced_append, hsurfaced, hv, List.append_nil]
  -- the second gate, after a trail that passed the first
  have hsecond : ∀ (status : Option WitnessStatus) u, Clean u → surfaced u = [] → (DecodersBounded E → cp = none ∨ tipsRead u = []) →
      (∀ f, sub.checkpointFields = some f → ∃ tip status, (f.logId, tip) ∈ tipsRead u ∧ Linkage f tip status) →
      Keeps (serviceContract E cfg) r (do
        let g ← optionally cp (checkCheckpointContinuity E cfg)
        let issued ← appendStatement E now sub grade (continuityAssertion E (now 0) cp g)
        commitRegistration E now sub (acceptedCheckpoint cp g)
        return ({ receipt := issued.1, entryHash := sub.entryHash, leafIndex := issued.2.1, treeSize := issued.2.2
                  entryHashScheme := sub.scheme
                  checkpointWitness := sub.checkpointFields.bind fun fields => status.map fun st => (fields, st)
                  subject := sub.subject, continuityGrade := g } : StatementRegistration)) Q (t ++ u) := by
    intro status u hu hsurfaced hreads hlinked
    have hlinked' : ∀ v f, sub.checkpointFields = some f →
        ∃ tip status, (f.logId, tip) ∈ tipsRead (t ++ (u ++ v)) ∧ Linkage f tip status := by
      intro v f hf
      obtain ⟨tip, st, htip, hlink⟩ := hlinked f hf
      exact ⟨tip, st, by simp [htip], hlink⟩
    refine Keeps.bind (optionally_keeps ?_ ?_)
    · intro hnone
      refine hissue status none u hu hsurfaced ⟨?_, ?_⟩
      · have h := hlinked' []
        rwa [List.append_nil] at h
      · intro cp' hcp
        rw [hnone] at hcp
        cases hcp
    · intro cp' hcp
      have htips : DecodersBounded E → tipsRead (t ++ u) = [] := by
        intro hbounded
        rcases hreads hbounded with hnone | hnil
        · rw [hcp] at hnone
          cases hnone
        · rw [tipsRead_append, hquiet.tipsRead, hnil, List.append_nil]
      refine checkCheckpointContinuity_keeps (hclean.append hu) htips ?_
      intro g tip v hv hcont
      rw [List.append_assoc]
      refine hissue status (some g) (u ++ v) (hu.append hv.toClean) ?_ ⟨hlinked' v, ?_⟩
      · rw [surfaced_append, hsurfaced, hv.surfaced, List.append_nil]
      · intro cp'' hcp'
        obtain rfl : cp' = cp'' := Option.some.inj (hcp.symm.trans hcp')
        exact ⟨tip, g, rfl, by simp [hv.tipsRead], hcont⟩
  refine Keeps.bind (optionally_keeps ?_ ?_)
  · intro hnone
    have h := hsecond none [] clean_nil rfl (fun _ => .inr rfl) (by simp [hnone])
    rw [List.append_nil] at h
    exact h
  · intro f hf
    refine checkCheckpointConsistency_keeps hclean (fun _ => hquiet.tipsRead) ?_
    intro status tip u hu hlink
    refine hsecond (some status) u hu.toClean hu.surfaced ?_ ?_
    · intro hbounded
      rcases hone hbounded with hnone | hnone
      · rw [hf] at hnone
        cases hnone
      · exact .inl hnone
    · intro f' hf'
      obtain rfl : f = f' := Option.some.inj (hf.symm.trans hf')
      exact ⟨tip, status, by simp [hu.tipsRead], hlink⟩

/-- A whole registration. -/
theorem registerSignedStatementFull_keeps {now : Nat → Datetime} {statementBytes : Bytes} {grade : Option String}
    {cp : Option Checkpoint} {Q : StatementRegistration → CallTrail → Prop}
    (hsubmission : r.2.submission E = some (statementBytes, grade, cp))
    (hQ : ∀ result t, Settled t → surfaced t = [] → Registered E cfg r t result → Q result t) :
    Keeps (serviceContract E cfg) r (registerSignedStatementFull E cfg now statementBytes grade cp) Q [] := by
  refine Keeps.bind (Keeps.ofExcept ?_ (fun e _ => clean_nil.settled))
  intro sub hprep
  have hsub : Prepares E cfg r sub := ⟨statementBytes, grade, cp, hsubmission, hprep⟩
  have hprepared := prepare_ok E hprep
  have hone : DecodersBounded E → sub.checkpointFields = none ∨ cp = none := by
    rintro ⟨hcbor, hjson⟩
    cases cp with
    | none => exact .inr rfl
    | some cp =>
      obtain ⟨-, hbytes⟩ := submission_checkpoint E hsubmission
      rw [hbytes] at hprep
      exact .inl (prepare_digest E hcbor hjson hprep)
  refine Keeps.bind (lookupStatement_keeps hprepared.legacy_eq ?_ ?_)
  · intro row scheme u hu hfound
    obtain ⟨k, hk, hwhich, hrow⟩ := hfound
    have hregistered : ∀ v grade' witness, Registered E cfg r (u ++ v)
        { receipt := row.1, entryHash := if scheme = .legacy then sub.legacyHash else sub.entryHash
          leafIndex := row.2.1, treeSize := row.2.2, entryHashScheme := scheme, checkpointWitness := witness
          subject := sub.subject, continuityGrade := grade' } := by
      intro v grade' witness
      exact ⟨sub, hsub, .inl ⟨k, hk, hwhich, List.mem_append_left _ hrow⟩⟩
    simp only [List.nil_append]
    refine Keeps.bind (optionally_keeps ?_ ?_)
    · intro _
      have h := hregistered [] none (sub.checkpointFields.map fun fields => (fields, .alreadyRegistered))
      rw [List.append_nil] at h
      exact hQ _ u hu.toClean.settled hu.surfaced h
    · intro cp' _
      refine store_keeps trivial ?_
      intro record _
      have hread : Quiet [(⟨.getCheckpointRecord cp'.logId cp'.mmrSize, record⟩ : Σ c : Call, c.Ans)] :=
        ⟨⟨rfl, rfl, rfl⟩, rfl, rfl⟩
      exact hQ _ _ (hu.append hread).toClean.settled (hu.append hread).surfaced (hregistered _ _ _)
  · intro scheme u hu hmiss
    simp only [List.nil_append]
    refine registerNew_keeps hu hsub hprepared.entryHash hmiss hone ?_
    intro result v hsettled hv hkey hfiled
    refine hQ result (u ++ v) hsettled ?_ ⟨sub, hsub, .inr ⟨hkey, hfiled⟩⟩
    rw [surfaced_append, hu.surfaced, hv, List.append_nil]

private theorem settled_append {t u : CallTrail} (h : Settled t) (happended : appended u = []) (hfiled : filed u = []) :
    Settled (t ++ u) := by
  constructor
  · rw [appended_append, happended, List.append_nil, filed_append, hfiled, List.append_nil]
    exact h.cached
  · rw [filed_append, hfiled, List.append_nil, tipsMoved_append]
    intro row hrow a ha
    obtain ⟨witness, hwitness⟩ := h.committed row hrow a ha
    exact ⟨witness, List.mem_append_left _ hwitness⟩

private theorem Registered.append {t : CallTrail} {result : StatementRegistration} (h : Registered E cfg r t result)
    {u : CallTrail} (hu : filed u = []) : Registered E cfg r (t ++ u) result := by
  obtain ⟨sub, hsub, ⟨k, hk, hwhich, hrow⟩ | ⟨hkey, hfiled⟩⟩ := h
  · exact ⟨sub, hsub, .inl ⟨k, hk, hwhich, List.mem_append_left _ hrow⟩⟩
  · exact ⟨sub, hsub, .inr ⟨hkey, by rw [filed_append, hfiled, hu, List.append_nil]⟩⟩

private theorem witnessCheckpoint_keeps {now : Nat → Datetime} {cp : Checkpoint} (hr : r.2 = .witnessCheckpoint cp) :
    Keeps (serviceContract E cfg) r (witnessCheckpoint E cfg now cp)
      (fun result t => Answers E cfg r (.registered result) t) [] := by
  have hsubmission : r.2.submission E = some ((checkpointDigest E cp).bytes, cp.grade, some cp) := by
    rw [hr]
    rfl
  refine Keeps.bind (registerSignedStatementFull_keeps hsubmission ?_)
  intro result t hsettled hsurfaced hregistered
  refine Keeps.bind (store_keeps ⟨hsurfaced, cp, result, hr, rfl, rfl, rfl⟩ ?_)
  intro x _
  refine ⟨settled_append hsettled rfl rfl, hregistered.append rfl, ?_⟩
  rw [surfaced_append, hsurfaced, hr]
  rfl

private theorem anchor_keeps {now : Nat → Datetime} {tenantId rootHash : String} {seqRange : Int × Int}
    {capsuleId : Option String} : Keeps (serviceContract E cfg) r (anchor E now tenantId rootHash seqRange capsuleId)
      (fun receipt t => Answers E cfg r (.anchored receipt) t) [] := by
  have hroot : logKindRoot ≠ logKindScitt := by decide
  refine Keeps.bind (appendLog_keeps clean_nil (fun hkind => absurd hkind hroot) ?_)
  intro entry u hu hkind _
  have hsettled : Settled u := by
    constructor
    · intro e he hscitt
      rw [hu.appended, List.mem_singleton] at he
      rw [he, hkind] at hscitt
      exact absurd hscitt hroot
    · simp [hu.filed]
  rw [List.nil_append]
  refine Keeps.bind (store_keeps trivial ?_)
  intro x _
  refine Keeps.bind (optionally_keeps ?_ ?_)
  · intro _
    exact ⟨settled_append hsettled rfl rfl, by rw [surfaced_append, hu.surfaced]; rfl⟩
  · intro id _
    refine store_keeps trivial ?_
    intro y _
    rw [List.append_assoc]
    exact ⟨settled_append hsettled rfl rfl, by rw [surfaced_append, hu.surfaced]; rfl⟩

private theorem refresh_keeps {timestamp signedAt : Datetime} (hquiet : Quiet t) :
    Keeps (serviceContract E cfg) r (signAndPersistSth E timestamp signedAt)
      (fun sth t => Answers E cfg r (.sth sth) t) t := by
  refine signAndPersistSth_keeps ?_
  intro sth n u hu hsize hn hput
  have hall := hquiet.append hu
  exact ⟨hall.toClean.settled, ⟨n, List.mem_append_right _ hsize, hn⟩, .inr (List.mem_append_right _ hput), hall.surfaced⟩

theorem getSth_keeps {now : Nat → Datetime} : Keeps (serviceContract E cfg) r (getSth E now)
    (fun sth t => Answers E cfg r (.sth sth) t) [] := by
  refine Keeps.bind (store_keeps trivial ?_)
  intro stored _
  cases stored with
  | none => exact refresh_keeps ⟨⟨rfl, rfl, rfl⟩, rfl, rfl⟩
  | some sth =>
    refine Keeps.bind (store_keeps trivial ?_)
    intro n _
    have hquiet : Quiet [(⟨.getLatestSth, some sth⟩ : Σ c : Call, c.Ans), ⟨.size, n⟩] := ⟨⟨rfl, rfl, rfl⟩, rfl, rfl⟩
    split
    · rename_i hle
      exact ⟨hquiet.toClean.settled, ⟨n, by simp, hle⟩, .inl (by simp), hquiet.surfaced⟩
    · exact refresh_keeps hquiet

private theorem prune_keeps {seconds : Option Nat} {now : Datetime} (hr : r.2 = .prune seconds) :
    Keeps (serviceContract E cfg) r (pruneExpiredStatements seconds now)
      (fun count t => Answers E cfg r (.pruned count) t) [] := by
  cases seconds with
  | none => exact ⟨clean_nil.settled, rfl⟩
  | some seconds =>
    refine Keeps.bind (store_keeps ⟨some seconds, hr⟩ ?_)
    intro x _
    have hclean : Clean [(⟨.pruneStatementsOlderThan _, x⟩ : Σ c : Call, c.Ans)] := ⟨rfl, rfl, rfl⟩
    cases x with
    | error e => exact hclean.settled
    | ok count => exact ⟨hclean.settled, rfl⟩

end Programs

/-- Every request keeps the contract. -/
theorem program_keeps (r : TimedRequest) :
    Keeps (serviceContract E cfg) r (r.2.program E cfg r.1) (Answers E cfg r) [] := by
  obtain ⟨now, request⟩ := r
  cases request with
  | anchor tenantId rootHash seqRange capsuleId => exact Keeps.map anchor_keeps
  | register statementBytes =>
    refine Keeps.map (registerSignedStatementFull_keeps (r := (now, .register statementBytes)) rfl ?_)
    intro result t hsettled hsurfaced hregistered
    exact ⟨hsettled, hregistered, hsurfaced⟩
  | witnessCheckpoint cp => exact Keeps.map (witnessCheckpoint_keeps rfl)
  | refreshSth => exact Keeps.map (refresh_keeps quiet_nil)
  | getSth => exact Keeps.map getSth_keeps
  | prune seconds => exact Keeps.map (prune_keeps rfl)

end CapsuleAnchor

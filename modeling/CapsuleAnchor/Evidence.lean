import CapsuleAnchor.LogView
import CapsuleAnchor.Nodes

/-!
# Evidence from the public log

What the receipts of the public log say, over every schedule of services, publishers and routes.  The calls of a request
keep a contract (`MayCall`): inside the lock that of the service, and a publisher files what was answered about a head that
the service returned.  `Truthful` is the invariant of the shared node.

A filed receipt stays true of the log, and what a response to a checkpoint points to is the smallest published tree that
contains its leaf (`public_log_truthful`).  One instance serves a store of dicts, so there the lock is the only one
(`OneLock`); the tables need no such condition.
-/

namespace CapsuleAnchor

open Interleaving

variable (E : Env) (cfg : Config)

/-! ### What a request has done so far -/

abbrev NodeTrail : Type := Trail NodeCall.Ans

/-- A call whose answer did not arrive. -/
def Lost (t : NodeTrail) : Prop := ∃ c : Call, (⟨.store c, none⟩ : Σ c, NodeCall.Ans c) ∈ t

/-- The store methods that answered. -/
def answered (t : NodeTrail) : CallTrail :=
  t.filterMap fun
    | ⟨.store c, some x⟩ => some ⟨c, x⟩
    | _ => none

/-- The lock is held. -/
def locking (t : NodeTrail) : Bool :=
  t.foldl (fun held e => match e.1 with
    | .acquire => true
    | .release => false
    | _ => held) false

/-- The store methods that answered since the lock was taken. -/
def inLock (t : NodeTrail) : CallTrail :=
  t.foldl (fun u e => match e with
    | ⟨.acquire, _⟩ => []
    | ⟨.store c, some x⟩ => u ++ [⟨c, x⟩]
    | _ => u) []

section Projections

variable (t u : NodeTrail)

@[simp] theorem answered_append : answered (t ++ u) = answered t ++ answered u := List.filterMap_append

@[simp] theorem locking_acquire (x : Unit) : locking (t ++ [⟨.acquire, x⟩]) = true := by simp [locking]

@[simp] theorem locking_release (x : Unit) : locking (t ++ [⟨.release, x⟩]) = false := by simp [locking]

@[simp] theorem locking_store (c : Call) (x : Option c.Ans) : locking (t ++ [⟨.store c, x⟩]) = locking t := by
  simp [locking]

@[simp] theorem inLock_acquire (x : Unit) : inLock (t ++ [⟨.acquire, x⟩]) = [] := by simp [inLock]

@[simp] theorem inLock_release (x : Unit) : inLock (t ++ [⟨.release, x⟩]) = inLock t := by simp [inLock]

@[simp] theorem inLock_store (c : Call) (x : c.Ans) : inLock (t ++ [⟨.store c, some x⟩]) = inLock t ++ [⟨c, x⟩] := by
  simp [inLock]

@[simp] theorem inLock_lost (c : Call) : inLock (t ++ [⟨.store c, none⟩]) = inLock t := by simp [inLock]

/-- A call of the publisher or of the route, which does not touch the lock. -/
def NodeCall.unlocked : NodeCall → Bool
  | .acquire => false
  | .release => false
  | .store _ => false
  | _ => true

variable {t u}

theorem locking_unlocked {c : NodeCall} (hc : c.unlocked = true) (x : c.Ans) : locking (t ++ [⟨c, x⟩]) = locking t := by
  cases c with
  | acquire => cases hc
  | release => cases hc
  | store c => cases hc
  | _ => simp [locking]

theorem inLock_unlocked {c : NodeCall} (hc : c.unlocked = true) (x : c.Ans) : inLock (t ++ [⟨c, x⟩]) = inLock t := by
  cases c with
  | acquire => cases hc
  | release => cases hc
  | store c => cases hc
  | _ => simp [inLock]

theorem answered_unlocked {c : NodeCall} (hc : c.unlocked = true) (x : c.Ans) : answered [⟨c, x⟩] = [] := by
  cases c with
  | acquire => cases hc
  | release => cases hc
  | store c => cases hc
  | _ => rfl

theorem lost_append : Lost (t ++ u) ↔ Lost t ∨ Lost u := by
  simp only [Lost, List.mem_append]
  exact exists_or

theorem lost_one {c : NodeCall} {x : c.Ans} (h : Lost [⟨c, x⟩]) :
    ∃ c', (⟨c, x⟩ : Σ c, NodeCall.Ans c) = ⟨.store c', none⟩ := by
  obtain ⟨c', hc'⟩ := h
  exact ⟨c', (List.mem_singleton.1 hc').symm⟩

/-- A trail that has lost no answer loses none with one that arrives. -/
theorem not_lost_append (h : ¬ Lost t) {c : NodeCall} {x : c.Ans}
    (hx : ∀ c', (⟨c, x⟩ : Σ c, NodeCall.Ans c) ≠ ⟨.store c', none⟩) : ¬ Lost (t ++ [⟨c, x⟩]) := by
  rw [lost_append]
  rintro (ht | hone)
  · exact h ht
  · obtain ⟨c', hc'⟩ := lost_one hone
    exact hx c' hc'

theorem not_lost_nil : ¬ Lost [] := by
  rintro ⟨c, hc⟩
  cases hc

theorem answered_mono (h : t ⊆ u) : answered t ⊆ answered u := by
  intro e he
  obtain ⟨e', he', heq⟩ := List.mem_filterMap.1 he
  exact List.mem_filterMap.2 ⟨e', h he', heq⟩

/-- What answered since the lock was taken has answered. -/
theorem inLock_subset (t : NodeTrail) : inLock t ⊆ answered t := by
  induction t using List.reverseRecOn with
  | nil => exact List.nil_subset _
  | append_singleton t e ih =>
    have hold : inLock t ⊆ answered (t ++ [e]) := by
      rw [answered_append]
      exact List.subset_append_of_subset_left _ ih
    obtain ⟨c, x⟩ := e
    cases c with
    | acquire =>
      rw [inLock_acquire]
      exact List.nil_subset _
    | release =>
      rw [inLock_release]
      exact hold
    | store c =>
      cases x with
      | none =>
        rw [inLock_lost]
        exact hold
      | some x =>
        rw [inLock_store, answered_append]
        exact List.append_subset.2 ⟨List.subset_append_of_subset_left _ ih, List.subset_append_right _ _⟩
    | _ =>
      rw [inLock_unlocked rfl]
      exact hold

end Projections

/-! ### The contract -/

/-- The request of the service that a node makes. -/
def NodeRequest.timed : NodeRequest → TimedRequest
  | .serve now request => (now, request)
  | .publish now _ _ => (now, .getSth)
  | .checkpoint now _ _ cp => (now, .witnessCheckpoint cp)

/-- A head that the service returned: it was stored, or it was signed and persisted. -/
def Returned (t : NodeTrail) (sth : SignedTreeHead) : Prop :=
  ⟨.getLatestSth, some sth⟩ ∈ answered t ∨ ⟨.putSth sth, ()⟩ ∈ answered t

def MayCall (r : NodeRequest) (t : NodeTrail) : NodeCall → Prop
  | .acquire => locking t = false ∧ ¬ Lost t
  | .store c => locking t = true ∧ ¬ Lost t ∧ May E cfg r.timed (inLock t) c
  | .release => True
  | .insert receipt => locking t = false ∧ ∃ sth response backend submittedAt, Returned t sth ∧
    receipt = PublicLogResponse.receipt response backend sth submittedAt
  | _ => locking t = false

def CountsOn (t : NodeTrail) : (c : NodeCall) → c.Ans → Prop
  | .store c, some x => Counts (inLock t) c x
  | _, _ => True

def nodeContract : Contract NodeCall.Ans Empty NodeRequest where
  may := MayCall E cfg
  valid := CountsOn
  fails := fun _ _ _ => False

/-- The receipt was read from the cache or put into it. -/
def Backed (t : NodeTrail) (k : Digest) (row : CoseReceipt × Int × Nat) : Prop :=
  ⟨.getStatement k, some row⟩ ∈ answered t ∨ ⟨.putStatement k row.1 row.2.1 row.2.2, ()⟩ ∈ answered t

/-- What a response to a checkpoint has behind it. -/
def Evident (_ : NodeRequest) (reply : NodeReply) (t : NodeTrail) : Prop :=
  ∀ response, reply = .stamped response →
    Backed t response.entryHash (response.receipt.receipt, response.leafIndex, response.treeSize) ∧
    response.receipt.publicLog = response.publicLog ∧
    ∀ entry, response.publicLog = some entry → ∃ backend covering,
      ⟨.covering backend response.treeSize, some (some covering)⟩ ∈ t ∧ entry = covering.entry

section Programs

variable {E cfg} {r : NodeRequest} {t : NodeTrail} {α : Type}

/-- A program of the service keeps its contract inside the lock. -/
theorem caught_keeps {p : ServiceM α} {Q : α → CallTrail → Prop} {R : Except (Option ServiceError) α → NodeTrail → Prop}
    (hlocking : locking t = true) (hlost : ¬ Lost t) (hp : Keeps (serviceContract E cfg) r.timed p Q (inLock t))
    (hok : ∀ a t', t ⊆ t' → locking t' = true → ¬ Lost t' → Q a (inLock t') → R (.ok a) t')
    (herror : ∀ e t', R (.error e) t') : Keeps (nodeContract E cfg) r (caught p) R t := by
  induction p generalizing t with
  | pure a => exact hok a t (List.Subset.refl _) hlocking hlost hp
  | throw e => exact herror _ _
  | call c k ih =>
    rw [caught]
    refine ⟨⟨hlocking, hlost, hp.1⟩, ?_⟩
    intro x hcounts
    cases x with
    | none => exact herror _ _
    | some x =>
      refine ih x (by simpa using hlocking) ?_ ?_ ?_
      · refine not_lost_append hlost ?_
        rintro c' ⟨⟩
      · rw [inLock_store]
        exact hp.2 x hcounts
      · intro a t' ht'
        exact hok a t' (List.Subset.trans (List.subset_append_left _ _) ht')

/-- A section under the lock. -/
theorem locked_keeps {p : ServiceM α} {Q : α → CallTrail → Prop} {R : Except (Option ServiceError) α → NodeTrail → Prop}
    (hlocking : locking t = false) (hlost : ¬ Lost t) (hp : Keeps (serviceContract E cfg) r.timed p Q [])
    (hok : ∀ a t', t ⊆ t' → locking t' = false → ¬ Lost t' → Q a (inLock t') → R (.ok a) t')
    (herror : ∀ e t', R (.error e) t') : Keeps (nodeContract E cfg) r (locked p) R t := by
  refine Keeps.bind (Keeps.perform ⟨hlocking, hlost⟩ ?_)
  intro x _
  have hlost' : ¬ Lost (t ++ [⟨.acquire, x⟩]) := by
    refine not_lost_append hlost ?_
    rintro c' ⟨⟩
  refine Keeps.bind (caught_keeps (locking_acquire t x) hlost' (by rwa [inLock_acquire]) ?_ ?_)
  · intro a t' ht' _ hlost' hQ
    refine Keeps.bind (Keeps.perform trivial ?_)
    intro y _
    have hsubset : t ⊆ t' ++ [⟨.release, y⟩] :=
      List.Subset.trans (List.subset_append_left _ _) (List.Subset.trans ht' (List.subset_append_left _ _))
    refine hok a _ hsubset (locking_release t' y) ?_ (by rwa [inLock_release])
    refine not_lost_append hlost' ?_
    rintro c' ⟨⟩
  · intro e t'
    refine Keeps.bind (Keeps.perform trivial ?_)
    intro y _
    exact herror e _

theorem Returned.append {sth : SignedTreeHead} (h : Returned t sth) (u : NodeTrail) : Returned (t ++ u) sth := by
  rcases h with hread | hput
  · exact .inl (answered_mono (List.subset_append_left t u) hread)
  · exact .inr (answered_mono (List.subset_append_left t u) hput)

theorem Backed.mono {t' : NodeTrail} (ht : t ⊆ t') {k : Digest} {row : CoseReceipt × Int × Nat} (h : Backed t k row) :
    Backed t' k row := by
  rcases h with hread | hput
  · exact .inl (answered_mono ht hread)
  · exact .inr (answered_mono ht hput)

/-- A registration answered from the cache or filed its receipt. -/
theorem Registered.backed {r : TimedRequest} {result : StatementRegistration} (h : Registered E cfg r (inLock t) result) :
    Backed t result.entryHash (result.receipt, result.leafIndex, result.treeSize) := by
  obtain ⟨sub, -, ⟨k, rfl, -, hread⟩ | ⟨hkey, hfiled⟩⟩ := h
  · exact .inl (inLock_subset t hread)
  · have hmem : (sub.entryHash, result.receipt, result.leafIndex, result.treeSize) ∈ filed (inLock t) := by
      rw [hfiled]
      exact List.mem_singleton_self _
    obtain ⟨⟨c, x⟩, hc, hrow⟩ := List.mem_filterMap.1 hmem
    split at hrow
    · rename_i heq
      obtain ⟨rfl, rfl, rfl, rfl⟩ : _ ∧ _ ∧ _ ∧ _ := by simpa using hrow
      rw [heq] at hc
      rw [hkey]
      exact .inr (inLock_subset t hc)
    · cases hrow

/-- Both sections of `witness_checkpoint`. -/
theorem lockedWitness_keeps {now : Nat → Datetime} {cp : Checkpoint} (hr : r.timed.2 = .witnessCheckpoint cp)
    {R : Except (Option ServiceError) StatementRegistration → NodeTrail → Prop}
    (hok : ∀ result t', locking t' = false →
      Backed t' result.entryHash (result.receipt, result.leafIndex, result.treeSize) → R (.ok result) t')
    (herror : ∀ e t', R (.error e) t') : Keeps (nodeContract E cfg) r (lockedWitness E cfg now cp) R [] := by
  have hsubmission : r.timed.2.submission E = some ((checkpointDigest E cp).bytes, cp.grade, some cp) := by
    rw [hr]
    rfl
  refine Keeps.bind (locked_keeps rfl not_lost_nil
    (registerSignedStatementFull_keeps hsubmission (fun result u _ _ hregistered => hregistered)) ?_ ?_)
  · intro result u _ hlocking hlost hregistered
    refine Keeps.bind (locked_keeps (Q := fun _ _ => True) hlocking hlost ?_ ?_ ?_)
    · exact store_keeps ⟨rfl, cp, result, hr, rfl, rfl, rfl⟩ (fun _ _ => trivial)
    · intro _ u' hu' hlocking' _ _
      exact hok result u' hlocking' (hregistered.backed.mono hu')
    · exact fun e u' => herror e u'
  · exact fun e u => herror e u

theorem evident_replied {result : Except (Option ServiceError) Reply} : Evident r (.replied result) t := by
  rintro response ⟨⟩

theorem evident_published {fresh : Option Bool} : Evident r (.published fresh) t := by
  rintro response ⟨⟩

theorem evident_failed {e : Option ServiceError} : Evident r (.failed e) t := by
  rintro response ⟨⟩

/-- The publisher files what the external log answers about a head that the service returned. -/
theorem nodePublishIfNew_keeps {now : Nat → Datetime} {backend submittedAt : String} :
    Keeps (nodeContract E cfg) r (nodePublishIfNew E now backend submittedAt) (Evident r) [] := by
  refine Keeps.bind (Keeps.perform rfl ?_)
  intro size _
  cases size with
  | none => exact evident_published
  | some size =>
    simp only
    split
    · exact evident_published
    · refine Keeps.bind (locked_keeps ?_ ?_ getSth_keeps ?_ ?_)
      · exact locking_unlocked rfl _
      · refine not_lost_append not_lost_nil ?_
        rintro c' ⟨⟩
      · intro sth t' _ hlocking _ hsth
        have hreturned : Returned t' sth := by
          rcases hsth.2.2.1 with hread | hput
          · exact .inl (inLock_subset t' hread)
          · exact .inr (inLock_subset t' hput)
        refine Keeps.bind (Keeps.perform hlocking ?_)
        intro stored _
        have hlocking₁ := (locking_unlocked (c := .lookup (sth.publication backend)) rfl stored).trans hlocking
        cases stored with
        | none => exact evident_published
        | some stored =>
          cases stored with
          | some receipt => exact evident_published
          | none =>
            refine Keeps.bind (Keeps.perform hlocking₁ ?_)
            intro answer _
            have hlocking₂ := (locking_unlocked (c := .submit backend sth) rfl answer).trans hlocking₁
            cases answer with
            | none => exact evident_published
            | some response =>
              exact Keeps.bind (Keeps.perform ⟨hlocking₂, sth, response, backend, submittedAt,
                (hreturned.append _).append _, rfl⟩ fun _ _ => evident_published)
      · exact fun _ _ => evident_published

/-- The route answers with a receipt that the service returned and with what the receipts said of its tree. -/
theorem witnessCheckpointCp_keeps {now : Nat → Datetime} {publicLog : Option String} {overBudget : Bool} {cp : Checkpoint}
    (hr : r.timed.2 = .witnessCheckpoint cp) :
    Keeps (nodeContract E cfg) r (witnessCheckpointCp E cfg now publicLog overBudget cp) (Evident r) [] := by
  unfold witnessCheckpointCp
  split
  · rintro response ⟨⟩
  · refine Keeps.bind (lockedWitness_keeps hr ?_ fun _ _ => evident_failed)
    intro result t' hlocking hbacked
    simp only [attachPublicLog]
    cases publicLog with
    | none =>
      rintro response ⟨⟩
      refine ⟨hbacked, rfl, ?_⟩
      intro entry hentry
      cases hentry
    | some backend =>
      refine Keeps.bind (Keeps.perform hlocking ?_)
      intro covering _
      have hsubset := List.subset_append_left t' [⟨.covering backend (stampResponse cp result).treeSize, covering⟩]
      cases covering with
      | none => exact evident_failed
      | some covering =>
        cases covering with
        | none =>
          rintro response ⟨⟩
          refine ⟨hbacked.mono hsubset, rfl, ?_⟩
          intro entry hentry
          cases hentry
        | some covering =>
          rintro response ⟨⟩
          refine ⟨hbacked.mono hsubset, rfl, ?_⟩
          rintro entry ⟨⟩
          exact ⟨backend, covering, by simp [CheckpointStampResponse.cover], rfl⟩

variable (E cfg) in
theorem nodeProgram_keeps (r : NodeRequest) : Keeps (nodeContract E cfg) r (r.program E cfg) (Evident r) [] := by
  cases r with
  | serve now request =>
    have hlocked : Keeps (nodeContract E cfg) (.serve now request)
        (NodeReply.replied <$> locked (request.program E cfg now)) (Evident (.serve now request)) [] :=
      Keeps.map (locked_keeps rfl not_lost_nil (program_keeps E cfg (now, request)) (fun _ _ _ _ _ _ => evident_replied)
        fun _ _ => evident_replied)
    cases request with
    | witnessCheckpoint cp =>
      exact Keeps.map (lockedWitness_keeps rfl (fun _ _ _ _ => evident_replied) fun _ _ => evident_replied)
    | _ => exact hlocked
  | publish now backend submittedAt => exact nodePublishIfNew_keeps
  | checkpoint now publicLog overBudget cp => exact witnessCheckpointCp_keeps rfl

end Programs

/-! ### The covering receipt -/

theorem mem_publishedTo {receipts : PublicLogReceipts} {backend : String} {r : PublicLogReceipt} :
    r ∈ publishedTo receipts backend ↔ (∃ key, receipts.lookup key = some r) ∧ r.backend = backend := by
  rw [publishedTo, List.mem_filter, decide_eq_true_eq, List.mem_map]
  refine and_congr_left fun _ => ⟨?_, ?_⟩
  · rintro ⟨⟨key, r⟩, hrow, rfl⟩
    exact ⟨key, mem_rowsOf.1 hrow⟩
  · rintro ⟨key, hkey⟩
    exact ⟨(key, r), mem_rowsOf.2 hkey, rfl⟩

/-- The query finds the smallest of the receipts that are large enough. -/
theorem covering_least {b : Backend} {receipts : PublicLogReceipts} {backend : String} {n : Nat} {r : PublicLogReceipt}
    (h : b.getPublicLogReceiptCovering receipts backend n = some r) : r ∈ publishedTo receipts backend ∧
      n ≤ r.sthTreeSize ∧ ∀ r' ∈ publishedTo receipts backend, n ≤ r'.sthTreeSize → r.sthTreeSize ≤ r'.sthTreeSize := by
  have hleast : r ∈ (publishedTo receipts backend).filter (fun r => n ≤ r.sthTreeSize) ∧
      ∀ r' ∈ (publishedTo receipts backend).filter (fun r => n ≤ r.sthTreeSize), r.sthTreeSize ≤ r'.sthTreeSize := by
    unfold Backend.getPublicLogReceiptCovering at h
    simp only at h
    split at h
    · exact ⟨List.argmin_mem h, fun r' hr' => List.le_of_mem_argmin hr' h⟩
    · exact firstBy_le h
  obtain ⟨hmem, hle⟩ := hleast
  rw [List.mem_filter, decide_eq_true_eq] at hmem
  refine ⟨hmem.1, hmem.2, ?_⟩
  intro r' hr' hn
  exact hle r' (List.mem_filter.2 ⟨hr', decide_eq_true hn⟩)

/-- The receipt is about a prefix of the log that has `n` entries or more. -/
def Covering (log : List TransparencyLogEntry) (n : Nat) (r : PublicLogReceipt) : Prop :=
  n ≤ r.sthTreeSize ∧ r.sthTreeSize ≤ log.length ∧ r.sthRootHash = rootAt E log r.sthTreeSize

theorem Covering.mono {log log' : List TransparencyLogEntry} {n : Nat} {r : PublicLogReceipt} (h : Covering E log n r)
    (hlog : log <+: log') : Covering E log' n r := by
  obtain ⟨hn, hsize, hroot⟩ := h
  refine ⟨hn, hsize.trans hlog.length_le, ?_⟩
  rw [hroot, rootAt, rootAt, take_of_prefix hlog hsize]

/-! ### The invariant -/

section Invariant

variable {ι : Type} [DecidableEq ι] {b : Backend}

def Node.log (s : Node b) : List TransparencyLogEntry := (b.view s.rail.store).log

/-- Over the dicts the lock is taken when no process holds it. -/
def OneLock (_ : ι) (c : NodeCall) (v : View ι NodeCall.Ans (Node b)) : Prop :=
  b = .memory → c = .acquire → ∀ j, locking (v.trails j) = false

structure Truthful (v : View ι NodeCall.Ans (Node b)) : Prop where
  sound : (b.view v.shared.rail.store).Sound E (answered v.history)
  published : Published E v.shared.log v.shared.rail.receipts
  covered : ∀ backend n r, ⟨.covering backend n, some (some r)⟩ ∈ v.history → Covering E v.shared.log n r
  alone : b = .memory → ∀ i j, locking (v.trails i) = true → locking (v.trails j) = true → i = j
  /-- Over the dicts the log is as long as the holder of the lock has read, until it appends. -/
  fresh : b = .memory → ∀ i, locking (v.trails i) = true → ¬ Lost (v.trails i) → appended (inLock (v.trails i)) = [] →
    ∀ n, ⟨.size, n⟩ ∈ inLock (v.trails i) → n = v.shared.log.length

omit [DecidableEq ι] in
theorem truthful_idle {faults : List (Option Fault)} :
    Truthful E (⟨⟨{ store := b.empty }, faults⟩, fun _ => [], []⟩ : View ι NodeCall.Ans (Node b)) where
  sound := by
    rw [view_empty]
    exact sound_none E
  published := published_empty E _
  covered := by simp
  alone := by simp [locking]
  fresh := by simp [locking]

variable {E} {v : View ι NodeCall.Ans (Node b)} {i : ι} {e : Σ c, NodeCall.Ans c} {s : Node b}

theorem Truthful.extend (h : Truthful E v) (hsound : (b.view s.rail.store).Sound E (answered v.history ++ answered [e]))
    (hlog : v.shared.log <+: s.log) (hpublished : Published E s.log s.rail.receipts)
    (hcovered : ∀ backend n r, e = ⟨.covering backend n, some (some r)⟩ → Covering E s.log n r)
    (halone : b = .memory → locking (v.trails i ++ [e]) = true → ∀ j, j ≠ i → locking (v.trails j) = false)
    (hself : b = .memory → locking (v.trails i ++ [e]) = true → ¬ Lost (v.trails i ++ [e]) →
      appended (inLock (v.trails i ++ [e])) = [] → ∀ n, ⟨.size, n⟩ ∈ inLock (v.trails i ++ [e]) → n = s.log.length)
    (hothers : b = .memory → ∀ j, j ≠ i → locking (v.trails j) = true → s.log = v.shared.log) :
    Truthful E (v.extend i e s) where
  sound := by
    simpa only [View.extend, answered_append] using hsound
  published := hpublished
  covered := by
    intro backend n r hr
    rcases List.mem_append.1 hr with hold | hnew
    · exact (h.covered backend n r hold).mono E hlog
    · exact hcovered backend n r (List.mem_singleton.1 hnew).symm
  alone := by
    intro hb j k hj hk
    rw [View.trails_extend] at hj hk
    split at hj
    · rename_i hji
      split at hk
      · rename_i hki
        rw [hji, hki]
      · rename_i hki
        rw [halone hb hj k hki] at hk
        cases hk
    · rename_i hji
      split at hk
      · rw [halone hb hk j hji] at hj
        cases hj
      · exact h.alone hb j k hj hk
  fresh := by
    intro hb j
    rw [View.trails_extend]
    split
    · exact hself hb
    · rename_i hji
      intro hlocking hlost happended n hn
      change n = s.log.length
      rw [hothers hb j hji hlocking]
      exact h.fresh hb j hlocking hlost happended n hn

/-- A call outside the lock that leaves the store alone. -/
theorem Truthful.unlocked (h : Truthful E v) {c : NodeCall} {x : c.Ans} (hc : c.unlocked = true)
    (hstore : s.rail.store = v.shared.rail.store) (hpublished : Published E s.log s.rail.receipts)
    (hcovered : ∀ backend n r, (⟨c, x⟩ : Σ c, NodeCall.Ans c) = ⟨.covering backend n, some (some r)⟩ →
      Covering E s.log n r) : Truthful E (v.extend i ⟨c, x⟩ s) := by
  have hlog : s.log = v.shared.log := by rw [Node.log, hstore, Node.log]
  refine h.extend ?_ (by simp only [hlog, List.prefix_rfl]) hpublished hcovered ?_ ?_ (fun _ _ _ _ => hlog)
  · rw [answered_unlocked hc, List.append_nil, hstore]
    exact h.sound
  · intro hb hlocking j hj
    rw [locking_unlocked hc] at hlocking
    cases hother : locking (v.trails j) with
    | false => rfl
    | true => exact absurd (h.alone hb j i hother hlocking) hj
  · intro hb hlocking hlost happended n hn
    rw [locking_unlocked hc] at hlocking
    rw [inLock_unlocked hc] at happended hn
    rw [hlog]
    exact h.fresh hb i hlocking (fun hold => hlost (lost_append.2 (.inl hold))) happended n hn

/-! ### One call -/

section Store

variable {cfg : Config} {r : NodeRequest} {c : Call}

omit [DecidableEq ι] in
/-- While a process holds the lock over the dicts, no other process does. -/
private theorem holder (h : Truthful E v) (hlocking : locking (v.trails i) = true) (hb : b = .memory) {j : ι} (hj : j ≠ i) :
    locking (v.trails j) = false := by
  cases hother : locking (v.trails j) with
  | false => rfl
  | true => exact absurd (h.alone hb j i hother hlocking) hj

omit [DecidableEq ι] in
/-- An entry that is appended is the next one: the table refuses an index that is taken, and over the dicts the log has not
changed since its size was read. -/
private theorem next_index (h : Truthful E v) (hlogged : v.trails i ⊆ v.history)
    (hmay : MayCall E cfg r (v.trails i) (.store c)) {entry : TransparencyLogEntry} {u : Unit}
    (hcall : (⟨c, (b.exec E c v.shared.rail.store).1⟩ : Σ c : Call, c.Ans) = ⟨.appendEntry entry, .ok u⟩) :
    entry.logIndex = v.shared.log.length := by
  obtain ⟨hlocking, hlost, hmay⟩ := hmay
  obtain ⟨rfl, hx⟩ := Sigma.mk.inj hcall
  have hok := eq_of_heq hx
  obtain ⟨n, es, kind, payload, loggedAt, signedAt, hsize, -, hindex, -⟩ := hmay.2.1
  have hle : n ≤ v.shared.log.length := h.sound.noted _ (answered_mono hlogged (inLock_subset _ hsize))
  rw [hindex]
  by_cases hb : b = .memory
  · rw [h.fresh hb i hlocking hlost hmay.1 n hsize]
  · have hfree := appendEntry_free E hb hok
    by_contra hne
    have hlt : n < v.shared.log.length := by omega
    have hget := List.getElem?_eq_getElem hlt
    refine hfree _ (List.getElem_mem hlt) ?_
    rw [h.sound.indexed n _ hget, hindex]

omit [DecidableEq ι] in
/-- A method keeps the store sound, whether its answer arrives or not. -/
private theorem sound_store (h : Truthful E v) (hlogged : v.trails i ⊆ v.history)
    (hmay : MayCall E cfg r (v.trails i) (.store c)) :
    (b.view (b.exec E c v.shared.rail.store).2).Sound E (answered v.history) ∧
      (b.view (b.exec E c v.shared.rail.store).2).Sound E
        (answered v.history ++ [⟨c, (b.exec E c v.shared.rail.store).1⟩]) := by
  have htrail : inLock (v.trails i) ⊆ answered v.history :=
    List.Subset.trans (inLock_subset _) (answered_mono hlogged)
  have hanswered := exec_view E b c v.shared.rail.store h.sound.indexed
  constructor
  · exact h.sound.call htrail hmay.2.2 hanswered (fun _ _ => next_index h hlogged hmay) (List.Subset.refl _)
      (fun _ he => .inl he)
  · refine h.sound.call htrail hmay.2.2 hanswered (fun _ _ => next_index h hlogged hmay) (List.subset_append_left _ _) ?_
    intro e he
    rcases List.mem_append.1 he with he | he
    · exact .inl he
    · exact .inr (List.mem_singleton.1 he)

/-- A call whose answer does not arrive leaves the store as it was, or as the method leaves it. -/
private theorem truthful_lost (h : Truthful E v) (hlogged : v.trails i ⊆ v.history)
    (hmay : MayCall E cfg r (v.trails i) (.store c)) (hreceipts : s.rail.receipts = v.shared.rail.receipts)
    (hstore : s.rail.store = v.shared.rail.store ∨ s.rail.store = (b.exec E c v.shared.rail.store).2) :
    Truthful E (v.extend i ⟨.store c, none⟩ s) := by
  have hanswered := exec_view E b c v.shared.rail.store h.sound.indexed
  have hsound : (b.view s.rail.store).Sound E (answered v.history) ∧ v.shared.log <+: s.log := by
    unfold Node.log
    rcases hstore with hstore | hstore
    · rw [hstore]
      exact ⟨h.sound, List.prefix_rfl⟩
    · rw [hstore]
      exact ⟨(sound_store h hlogged hmay).1, hanswered.log⟩
  refine h.extend ?_ hsound.2 (by rw [hreceipts]; exact h.published.mono hsound.2) nofun
    (fun hb _ j hj => holder h hmay.1 hb hj) ?_ ?_
  · rw [show answered [(⟨.store c, none⟩ : Σ c, NodeCall.Ans c)] = [] from rfl, List.append_nil]
    exact hsound.1
  · intro _ _ hlost
    exact absurd (lost_append.2 (.inr ⟨c, List.mem_singleton_self _⟩)) hlost
  · intro hb j hj hother
    rw [holder h hmay.1 hb hj] at hother
    cases hother

/-- A call that is answered leaves the store as the method leaves it. -/
private theorem truthful_arrived (h : Truthful E v) (hlogged : v.trails i ⊆ v.history)
    (hmay : MayCall E cfg r (v.trails i) (.store c)) (hreceipts : s.rail.receipts = v.shared.rail.receipts)
    (hstore : s.rail.store = (b.exec E c v.shared.rail.store).2) :
    Truthful E (v.extend i ⟨.store c, some (b.exec E c v.shared.rail.store).1⟩ s) := by
  have hanswered := exec_view E b c v.shared.rail.store h.sound.indexed
  have hgrown : v.shared.log <+: s.log := by
    rw [Node.log, Node.log, hstore]
    exact hanswered.log
  refine h.extend ?_ hgrown (by rw [hreceipts]; exact h.published.mono hgrown) nofun
    (fun hb _ j hj => holder h hmay.1 hb hj) ?_ ?_
  · rw [hstore]
    exact (sound_store h hlogged hmay).2
  · intro hb _ _ happended n hn
    rw [inLock_store, appended_append, List.append_eq_nil_iff] at happended
    have hsame : s.log = v.shared.log := by
      rw [Node.log, Node.log, hstore]
      exact hanswered.log_eq happended.2
    rw [hsame]
    rw [inLock_store] at hn
    rcases List.mem_append.1 hn with hold | hnew
    · exact h.fresh hb i hmay.1 hmay.2.1 happended.1 n hold
    · -- the size that was read just now
      obtain ⟨rfl, hx⟩ := Sigma.mk.inj (List.mem_singleton.1 hnew)
      rw [eq_of_heq hx]
      exact hanswered.1
  · intro hb j hj hother
    rw [holder h hmay.1 hb hj] at hother
    cases hother

/-- A method of the store, inside the lock. -/
private theorem truthful_store (h : Truthful E v) (hlogged : v.trails i ⊆ v.history)
    (hmay : MayCall E cfg r (v.trails i) (.store c)) (respond : List (String × SignedTreeHead) → PublicLogResponse) :
    CountsOn (v.trails i) (.store c) (Node.exec E b respond (.store c) v.shared).1 ∧
      Truthful E (v.extend i ⟨.store c, (Node.exec E b respond (.store c) v.shared).1⟩
        (Node.exec E b respond (.store c) v.shared).2) := by
  have hcounts : Counts (inLock (v.trails i)) c (b.exec E c v.shared.rail.store).1 :=
    h.sound.counts (List.Subset.trans (inLock_subset _) (answered_mono hlogged)) hmay.2.2
      (exec_view E b c v.shared.rail.store h.sound.indexed)
  obtain ⟨n, hn⟩ : ∃ n, n = Node.exec E b respond (.store c) v.shared := ⟨_, rfl⟩
  have hcases := Node.answer_cases v.shared (b.Raises E c v.shared.rail.store)
    ((b.exec E c v.shared.rail.store).1, { v.shared.rail with store := (b.exec E c v.shared.rail.store).2 })
  rw [show v.shared.answer _ _ = n from hn.symm] at hcases
  rw [← hn]
  obtain ⟨x, s⟩ := n
  rcases hcases with ⟨hnone, hrail⟩ | ⟨hsome, hrail⟩
  · simp only at hnone hrail
    subst hnone
    refine ⟨trivial, truthful_lost h hlogged hmay ?_ ?_⟩
    · rcases hrail with hrail | hrail <;> rw [hrail]
    · rcases hrail with hrail | hrail
      · exact .inl (congrArg Rail.store hrail)
      · exact .inr (congrArg Rail.store hrail)
  · simp only at hsome hrail
    subst hsome
    exact ⟨hcounts, truthful_arrived h hlogged hmay (by rw [hrail]) (by rw [hrail])⟩

end Store

/-- A call outside the lock that touches neither the store nor the receipts. -/
private theorem truthful_quiet (h : Truthful E v) {c : NodeCall} {x : c.Ans} (hc : c.unlocked = true)
    (hstore : s.rail.store = v.shared.rail.store) (hreceipts : s.rail.receipts = v.shared.rail.receipts)
    (hcovering : ∀ backend n r, (⟨c, x⟩ : Σ c, NodeCall.Ans c) ≠ ⟨.covering backend n, some (some r)⟩) :
    Truthful E (v.extend i ⟨c, x⟩ s) := by
  have hlog : s.log = v.shared.log := by rw [Node.log, hstore, Node.log]
  refine h.unlocked hc hstore ?_ (fun backend n r heq => absurd heq (hcovering backend n r))
  rw [hlog, hreceipts]
  exact h.published

variable (E) in
/-- The node answers as the programs count on and stays truthful, whatever fails. -/
theorem node_protects (cfg : Config) (respond : List (String × SignedTreeHead) → PublicLogResponse) :
    Protects (Node.exec E b respond) (nodeContract E cfg) Evident (fun _ => True) OneLock
      (Truthful E : View ι NodeCall.Ans (Node b) → Prop) where
  call := by
    intro v i r c h hlogged _ hmay hallowed
    cases c with
    | acquire =>
      refine ⟨trivial, h.extend ?_ List.prefix_rfl h.published nofun ?_ ?_ (fun _ _ _ _ => rfl)⟩
      · rw [show answered [(⟨.acquire, ()⟩ : Σ c, NodeCall.Ans c)] = [] from rfl, List.append_nil]
        exact h.sound
      · intro hb _ j _
        exact hallowed hb rfl j
      · intro _ _ _ _ n hn
        change ⟨.size, n⟩ ∈ inLock (v.trails i ++ [⟨.acquire, ()⟩]) at hn
        rw [inLock_acquire] at hn
        cases hn
    | release =>
      refine ⟨trivial, h.extend ?_ List.prefix_rfl h.published nofun ?_ ?_ (fun _ _ _ _ => rfl)⟩
      · rw [show answered [(⟨.release, ()⟩ : Σ c, NodeCall.Ans c)] = [] from rfl, List.append_nil]
        exact h.sound
      · intro _ hlocking
        change locking (v.trails i ++ [⟨.release, ()⟩]) = true at hlocking
        rw [locking_release] at hlocking
        cases hlocking
      · intro _ hlocking
        change locking (v.trails i ++ [⟨.release, ()⟩]) = true at hlocking
        rw [locking_release] at hlocking
        cases hlocking
    | store c => exact truthful_store h hlogged hmay respond
    | size =>
      have hrail : (Node.exec E b respond .size v.shared).2.rail = v.shared.rail := or_self_iff.1 (Node.answer_rail _ _ _)
      exact ⟨trivial, truthful_quiet h rfl (congrArg Rail.store hrail) (congrArg Rail.receipts hrail) nofun⟩
    | lookup key =>
      have hrail : (Node.exec E b respond (.lookup key) v.shared).2.rail = v.shared.rail :=
        or_self_iff.1 (Node.answer_rail _ _ _)
      exact ⟨trivial, truthful_quiet h rfl (congrArg Rail.store hrail) (congrArg Rail.receipts hrail) nofun⟩
    | submit backend sth =>
      have hrail := Node.answer_rail v.shared False (respond (v.shared.rail.submissions ++ [(backend, sth)]),
        { v.shared.rail with submissions := v.shared.rail.submissions ++ [(backend, sth)] })
      refine ⟨trivial, truthful_quiet h rfl ?_ ?_ nofun⟩
      · rcases hrail with hrail | hrail <;> exact (congrArg Rail.store hrail).trans rfl
      · rcases hrail with hrail | hrail <;> exact (congrArg Rail.receipts hrail).trans rfl
    | insert receipt =>
      obtain ⟨-, sth, response, backend, submittedAt, hreturned, rfl⟩ := hmay
      have hrail := Node.answer_rail v.shared (b.refusesReceipt (response.receipt backend sth submittedAt))
        ((), { v.shared.rail with
          receipts := b.putPublicLogReceipt (response.receipt backend sth submittedAt) v.shared.rail.receipts })
      have hhead : HeadAt E v.shared.log sth.treeSize sth := by
        rcases hreturned with hread | hput
        · exact h.sound.noted _ (answered_mono hlogged hread)
        · exact h.sound.noted _ (answered_mono hlogged hput)
      have hstore : (Node.exec E b respond (.insert (response.receipt backend sth submittedAt)) v.shared).2.rail.store =
          v.shared.rail.store := by
        rcases hrail with hrail | hrail <;> exact (congrArg Rail.store hrail).trans rfl
      refine ⟨trivial, h.unlocked rfl hstore ?_ nofun⟩
      rw [Node.log, hstore]
      rcases hrail with hrail | hrail
      · have hreceipts := (congrArg Rail.receipts hrail).symm
        exact hreceipts ▸ h.published
      · have hreceipts := (congrArg Rail.receipts hrail).symm
        exact hreceipts ▸ h.published.putPublicLogReceipt hhead b response backend submittedAt
    | covering backend n =>
      have hrail : (Node.exec E b respond (.covering backend n) v.shared).2.rail = v.shared.rail :=
        or_self_iff.1 (Node.answer_rail _ _ _)
      have hlog : (Node.exec E b respond (.covering backend n) v.shared).2.log = v.shared.log := by
        rw [Node.log, hrail, Node.log]
      refine ⟨trivial, h.unlocked rfl (congrArg Rail.store hrail) ?_ ?_⟩
      · rw [hlog, hrail]
        exact h.published
      · intro backend' m row heq
        obtain ⟨hcall, hx⟩ := Sigma.mk.inj heq
        obtain ⟨rfl, rfl⟩ := NodeCall.covering.inj hcall
        have hrow := eq_of_heq hx
        rw [hlog]
        rcases v.shared.answer_cases False (b.getPublicLogReceiptCovering v.shared.rail.receipts backend n, v.shared.rail)
          with ⟨hnone, -⟩ | ⟨hsome, -⟩
        · rw [show (Node.exec E b respond (.covering backend n) v.shared).1 = none from hnone] at hrow
          cases hrow
        · rw [show (Node.exec E b respond (.covering backend n) v.shared).1 = some _ from hsome] at hrow
          obtain ⟨hmem, hle, -⟩ := covering_least (Option.some.inj hrow)
          obtain ⟨⟨key, hkey⟩, -⟩ := mem_publishedTo.1 hmem
          exact ⟨hle, (h.published key row hkey).2⟩
  finish := by
    intro v i r result h _ _
    refine ⟨h.sound, h.published, h.covered, ?_, ?_⟩
    · intro hb j k hj hk
      rw [View.trails_clear] at hj hk
      split at hj
      · cases hj
      · split at hk
        · cases hk
        · exact h.alone hb j k hj hk
    · intro hb j
      rw [View.trails_clear]
      split
      · intro hlocking
        cases hlocking
      · exact h.fresh hb j

/-! ### The evidence -/

def Node.receipts (s : Node b) : List PublicLogReceipt := (rowsOf s.rail.receipts).map Prod.snd

/-- A node with nothing stored, and its processes idle. -/
abbrev freshNode (b : Backend) (faults : List (Option Fault)) : World ι NodeCall.Ans Empty NodeReply NodeRequest (Node b) :=
  World.idle { rail := { store := b.empty }, faults }

omit [DecidableEq ι] in
theorem mem_receipts {s : Node b} {r : PublicLogReceipt} : r ∈ s.receipts ↔ ∃ key, s.rail.receipts.lookup key = some r := by
  rw [Node.receipts, List.mem_map]
  constructor
  · rintro ⟨⟨key, r⟩, hrow, rfl⟩
    exact ⟨key, mem_rowsOf.1 hrow⟩
  · rintro ⟨key, hkey⟩
    exact ⟨(key, r), mem_rowsOf.2 hkey, rfl⟩

/-- Receipts that are filed under what they say are filed once. -/
private theorem nodup_receipts {log : List TransparencyLogEntry} {receipts : PublicLogReceipts}
    (h : Published E log receipts) :
    (((rowsOf receipts).map Prod.snd).map fun r => (r.backend, r.sthTreeSize, r.sthRootHash)).Nodup := by
  have hkeys : (((rowsOf receipts).map Prod.snd).map fun r => (r.backend, r.sthTreeSize, r.sthRootHash)) =
      (rowsOf receipts).map Prod.fst := by
    rw [List.map_map]
    refine List.map_congr_left ?_
    rintro ⟨key, r⟩ hrow
    exact (h key r (mem_rowsOf.1 hrow)).1.symm
  rw [hkeys, rowsOf, List.map_map, List.map_reverse]
  exact List.nodup_reverse.2 receipts.nodupKeys

omit [DecidableEq ι] in
/-- A receipt that the service returned is one that the log proves. -/
private theorem proven_of_backed (h : Truthful E v) {t : NodeTrail} (ht : t ⊆ v.history) {k : Digest}
    {row : CoseReceipt × Int × Nat} (hbacked : Backed t k row) : Proven E v.shared.log k row := by
  rcases hbacked with hread | hput
  · exact (h.sound.noted _ (answered_mono ht hread)).1
  · exact (h.sound.noted _ (answered_mono ht hput)).1

/-- The service proves the consistency of any two sizes of its log. -/
private theorem consistencyProof_node {s : Node b} (h : Indexed s.log) {m n : Nat} (hm : m ≤ n) (hn : n ≤ s.log.length) :
    ∃ proof, (consistencyProof E m n).runRaising (b.Raises E) (b.exec E) s.rail.store = (.ok proof, s.rail.store) ∧
      proof.firstRoot = rootAt E s.log m ∧ proof.secondRoot = rootAt E s.log n ∧ verifyConsistency E proof = true := by
  obtain ⟨proof, hproof, hroots⟩ := consistencyOver_ok E s.log hm hn
  have hread : (b.exec E (.entriesAfter 0) s.rail.store).1 = s.log :=
    (exec_view E b (.entriesAfter 0) s.rail.store h).1 rfl
  have hstore : (b.exec E (.entriesAfter 0) s.rail.store).2 = s.rail.store := by
    cases b <;> rfl
  refine ⟨proof, ?_, hroots⟩
  rw [consistencyProof_eq, Prog.runRaising_bind_ok (b.run_transparencyLog E s.rail.store), hread, hstore, hproof]
  rfl

/-- What the covering query answers is the smallest of the receipts that are there and large enough. -/
private theorem least_of_covering {respond : List (String × SignedTreeHead) → PublicLogResponse} {backend : String}
    {n : Nat} {r : PublicLogReceipt} (h : (Node.exec E b respond (.covering backend n) s).1 = some (some r)) :
    r ∈ s.receipts ∧ ∀ r' ∈ s.receipts, r'.backend = r.backend → n ≤ r'.sthTreeSize → r.sthTreeSize ≤ r'.sthTreeSize := by
  have hquery : b.getPublicLogReceiptCovering s.rail.receipts backend n = some r := by
    rcases s.answer_cases False (b.getPublicLogReceiptCovering s.rail.receipts backend n, s.rail) with
      ⟨hnone, -⟩ | ⟨hsome, -⟩
    · cases hnone.symm.trans h
    · exact Option.some.inj (hsome.symm.trans h)
  obtain ⟨hmem, -, hleast⟩ := covering_least hquery
  obtain ⟨hstored, hbackend⟩ := mem_publishedTo.1 hmem
  refine ⟨mem_receipts.2 hstored, ?_⟩
  intro r' hr' hsame hn
  exact hleast r' (mem_publishedTo.2 ⟨mem_receipts.1 hr', hsame.trans hbackend⟩) hn

variable (E) in
/-- Every stored receipt of the public log says the size and the root of a prefix of the log, and no two say the same.  A
response to a checkpoint that points to the public log points to a receipt that was the smallest one, when it was looked
up, of a tree at least as large as that of the response's receipt; the service proves that the one tree extends the other. -/
theorem public_log_truthful (cfg : Config) (respond : List (String × SignedTreeHead) → PublicLogResponse)
    (faults : List (Option Fault)) (as : List (Action ι NodeRequest))
    (hlock : Permitted (NodeRequest.program E cfg) (Node.exec E b respond) (fun _ => True) OneLock (freshNode b faults) as) :
    let world := after (NodeRequest.program E cfg) (Node.exec E b respond) (freshNode b faults : World ι _ _ _ _ (Node b))
    let s := (world as).view.shared
    (∀ r ∈ s.receipts, r.sthTreeSize ≤ s.log.length ∧ r.sthRootHash = rootAt E s.log r.sthTreeSize) ∧
    (s.receipts.map fun r => (r.backend, r.sthTreeSize, r.sthRootHash)).Nodup ∧
    ∀ o ∈ (world as).outcomes, ∀ response, o.result = .ok (.stamped response) →
      ∀ entry, response.publicLog = some entry →
        let receipt := response.receipt.receipt
        let root := rootAt E s.log response.treeSize
        (response.receipt.publicLog = some entry ∧ receipt.treeSize = response.treeSize ∧ receipt.signature =
          E.sign (sigStructure E (receiptProtected E receipt.iat receipt.grade receipt.continuity) root.bytes)) ∧
        response.treeSize ≤ entry.sthTreeSize ∧
        ∃ r, r.entry = entry ∧
          (∃ pre post p, as = pre ++ .advance o.process :: post ∧ (world pre).running o.process = some p ∧
            p.request = o.request ∧ p.start = o.start ∧ r ∈ (world pre).view.shared.receipts ∧
            ∀ r' ∈ (world pre).view.shared.receipts, r'.backend = entry.backend → response.treeSize ≤ r'.sthTreeSize →
              entry.sthTreeSize ≤ r'.sthTreeSize) ∧
          ∃ proof, (consistencyProof E response.treeSize entry.sthTreeSize).runRaising (b.Raises E) (b.exec E)
              s.rail.store = (.ok proof, s.rail.store) ∧
            proof.firstRoot = root ∧ proof.secondRoot = r.sthRootHash ∧ verifyConsistency E proof = true := by
  intro world s
  have hgood : Good (nodeContract E cfg) Evident (fun _ => True) (Truthful E) (world as) :=
    invariant (node_protects E cfg respond) (fun r _ => nodeProgram_keeps E cfg r) (good_idle (truthful_idle E)) hlock
  have htruthful : Truthful E (world as).view := hgood.shared
  refine ⟨?_, nodup_receipts htruthful.published, ?_⟩
  · intro r hr
    obtain ⟨key, hkey⟩ := mem_receipts.1 hr
    exact (htruthful.published key r hkey).2
  · intro o ho response hresponse entry hentry receipt root
    obtain ⟨-, htrail, -, hended⟩ := hgood.ended o ho
    rw [hresponse] at hended
    obtain ⟨hbacked, haugmented, hcovering⟩ := hended response rfl
    obtain ⟨backend, r, hr, rfl⟩ := hcovering entry hentry
    -- the receipt is proved by the log, and so is the row
    have hproven : Proven E s.log response.entryHash (receipt, response.leafIndex, response.treeSize) :=
      proven_of_backed htruthful htrail hbacked
    obtain ⟨hle, hsize, hroot⟩ : Covering E s.log response.treeSize r := htruthful.covered backend _ r (htrail hr)
    refine ⟨⟨haugmented.trans hentry, hproven.names.1, hproven.signature⟩, hle, r, rfl, ?_, ?_⟩
    · obtain ⟨pre, post, p, has, hrunning, hrequest, hstart, hanswer⟩ :=
        (answer_found as).2.2 o ho _ hr
      exact ⟨pre, post, p, has, hrunning, hrequest, hstart, least_of_covering hanswer⟩
    · obtain ⟨proof, hrun, hfirst, hsecond, hverify⟩ := consistencyProof_node htruthful.sound.indexed hle hsize
      exact ⟨proof, hrun, hfirst, hsecond.trans hroot.symm, hverify⟩

/-! ### A run with evidence -/

section Sample

variable {cfg : Config} {respond : List (String × SignedTreeHead) → PublicLogResponse}

/-- A process that works alone finds the lock free whenever it takes it. -/
private theorem one_lock_alone {w : World ι NodeCall.Ans Empty NodeReply NodeRequest (Node b)} {i : ι}
    (hgood : Good (nodeContract E cfg) Evident (fun _ => True) (Truthful E) w)
    (halone : ∀ j, j ≠ i → locking (w.view.trails j) = false) (n : Nat) :
    Permitted (NodeRequest.program E cfg) (Node.exec E b respond) (fun _ => True) OneLock w
      (List.replicate n (.advance i)) := by
  induction n generalizing w with
  | zero =>
    intro e he
    cases he
  | succ n ih =>
    have hfirst : Permitted (NodeRequest.program E cfg) (Node.exec E b respond) (fun _ => True) OneLock w [.advance i] := by
      intro e he
      obtain rfl := List.mem_singleton.1 he
      intro p c k hp hrest _ hc j
      by_cases hj : j = i
      · subst hj
        obtain ⟨-, -, hkeeps⟩ := hgood.running j p hp
        rw [hrest] at hkeeps
        subst hc
        exact hkeeps.1.1
      · exact halone j hj
    have hnext := invariant (node_protects E cfg respond) (fun r _ => nodeProgram_keeps E cfg r) hgood hfirst
    refine Permitted.append _ _ hfirst (ih hnext ?_)
    intro j hj
    have htrail : (act (NodeRequest.program E cfg) (Node.exec E b respond) w (.advance i)).view.trails j =
        w.view.trails j := trails_advance hj
    change locking ((act (NodeRequest.program E cfg) (Node.exec E b respond) w (.advance i)).view.trails j) = false
    rw [htrail]
    exact halone j hj

/-- A publisher that is left alone with a head that the receipts do not have files what it is answered. -/
private theorem run_publish_alone {m m' : MemoryStore} {sth : SignedTreeHead} {now : Nat → Datetime}
    {backend submittedAt : String} (hlog : m.log.length ≠ 0) (hhead : (getSth E now).run MemoryStore.exec m = (.ok sth, m')) :
    let response := respond [(backend, sth)]
    ((nodePublishIfNew E now backend submittedAt).run (Node.exec E .memory respond) ⟨{ store := m }, []⟩).2 =
      ⟨{ store := m', receipts := insertNew ∅ (sth.publication backend) (response.receipt backend sth submittedAt)
         submissions := [(backend, sth)] }, []⟩ := by
  intro response
  have hsize : (NodeCall.perform .size).run (Node.exec E .memory respond) ⟨{ store := m }, []⟩ =
      (.ok (some m.log.length), ⟨{ store := m }, []⟩) := rfl
  have hlocked : (locked (getSth E now)).run (Node.exec E .memory respond) ⟨{ store := m }, []⟩ = _ := run_locked _ _
  rw [Backend.runRaising_memory, hhead] at hlocked
  rw [nodePublishIfNew, Prog.run_bind_ok _ hsize]
  simp only
  rw [if_neg hlog, Prog.run_bind_ok _ hlocked]
  rfl

/-- The query finds the only receipt there is, if it is large enough. -/
private theorem covering_only {key : PublicationKey} {r : PublicLogReceipt} {backend : String} {n : Nat}
    (hbackend : r.backend = backend) (hn : n ≤ r.sthTreeSize) :
    Backend.memory.getPublicLogReceiptCovering (insertNew ∅ key r) backend n = some r := by
  have hrows : publishedTo (insertNew ∅ key r) backend = [r] := by
    have hall : ((rowsOf (insertNew ∅ key r)).map Prod.snd) = [r] := rfl
    simp [publishedTo, hall, hbackend]
  simp [Backend.getPublicLogReceiptCovering, hrows, hn]

/-- What a step of the service is, is what its program does. -/
private theorem witness_of_step {now : Nat → Datetime} {cp : Checkpoint} {m m' : MemoryStore}
    {result : StatementRegistration} (h : step E cfg m (now, .witnessCheckpoint cp) = (.ok (.registered result), m')) :
    (witnessCheckpoint E cfg now cp).run MemoryStore.exec m = (.ok result, m') := by
  have hmap := Prog.run_map MemoryStore.exec Reply.registered (witnessCheckpoint E cfg now cp) m
  rw [show (Reply.registered <$> witnessCheckpoint E cfg now cp).run MemoryStore.exec m = _ from h] at hmap
  cases hrun : (witnessCheckpoint E cfg now cp).run MemoryStore.exec m with
  | mk outcome m'' =>
    rw [hrun] at hmap
    obtain ⟨hreply, rfl⟩ := Prod.mk.inj hmap
    cases outcome with
    | error e => cases hreply
    | ok result' =>
      obtain rfl := Reply.registered.inj (Except.ok.inj hreply)
      rfl

end Sample

/-- A checkpoint is registered, a publisher publishes the tree with its leaf, and then the route looks for a receipt. -/
theorem public_log_truthful_sample :
    let E := refEnv [] [] fun _ _ _ _ _ => true
    let respond : List (String × SignedTreeHead) → PublicLogResponse := fun _ => ⟨"uuid", none, .null, .null, "\x7b\x7d"⟩
    ∃ as : List (Action Bool NodeRequest), ∃ o ∈ (after (NodeRequest.program E {}) (Node.exec E .memory respond)
        (freshNode .memory []) as).outcomes, ∃ response entry, o.result = .ok (.stamped response) ∧
      response.publicLog = some entry ∧ response.treeSize ≤ entry.sthTreeSize := by
  intro E respond
  let now : Nat → Datetime := fun i => ⟨i, 0⟩
  let cp : Checkpoint := refCheckpoint 4 3 (by decide)
  -- the checkpoint's registration
  have hdecode : decodeCoseSign1 E (checkpointDigest E cp).bytes = none := rfl
  obtain ⟨result, m₁, hstep, -⟩ := step_witness_first E {} (s := {}) indexed_nil hdecode (AList.lookup_empty _)
    (AList.lookup_empty _) now
  have hcases := step_cases E {} (s := {}) indexed_nil (now, .witnessCheckpoint cp)
  rw [hstep] at hcases
  have hissued := issued_of_step E {} hcases (kept_empty E)
  have hkept := hcases.kept E {} (kept_empty E)
  have hsize : result.treeSize ≤ m₁.log.length := hissued.size_le
  have hlog : m₁.log.length ≠ 0 := by
    obtain ⟨i, -, hi, -⟩ := hissued.entry
    omega
  have hhead : ∃ sth m₂, (getSth E now).run MemoryStore.exec m₁ = (.ok sth, m₂) ∧ m₁.log.length ≤ sth.treeSize := by
    rcases getSth_run E hkept.indexed now with ⟨sth, -, hle, hrun⟩ | hrun
    · exact ⟨sth, m₁, hrun, hle⟩
    · exact ⟨_, _, hrun, Nat.le_refl _⟩
  obtain ⟨sth, m₂, hsth, hle⟩ := hhead
  let exec := Node.exec E .memory respond
  let w₀ := after (NodeRequest.program E {}) exec (freshNode .memory [] : World Bool _ _ _ _ _)
    [.start false (.checkpoint now (some "rekor") false cp), .start true (.publish now "rekor" "")]
  have hstart : Permitted (NodeRequest.program E {}) exec (fun _ => True) OneLock (freshNode .memory [])
      [.start false (.checkpoint now (some "rekor") false cp), .start true (.publish now "rekor" "")] := by
    intro e he
    rcases List.mem_cons.1 he with rfl | he
    · trivial
    · obtain rfl := List.mem_singleton.1 he
      trivial
  -- the first process registers
  obtain ⟨rest, hrunning₀, hrest⟩ : ∃ rest, w₀.running false = some ⟨.checkpoint now (some "rekor") false cp,
      ⟨{ store := {} }, []⟩, lockedWitness E {} now cp >>= rest⟩ ∧
      rest (.ok result) = attachPublicLog (some "rekor") (stampResponse cp result) := ⟨_, rfl, rfl⟩
  have hwitness : (lockedWitness E {} now cp).run exec ⟨{ store := {} }, []⟩ = (.ok (.ok result), ⟨{ store := m₁ }, []⟩) := by
    have hrun : (lockedWitness E {} now cp).run exec ⟨{ store := {} }, []⟩ = _ := run_lockedWitness E {} now cp _
    rw [hrun, Backend.runRaising_memory, witness_of_step hstep]
    rfl
  have hgood₀ : Good (nodeContract E {}) Evident (fun _ => True) (Truthful E) w₀ :=
    invariant (node_protects E {} respond) (fun r _ => nodeProgram_keeps E {} r) (good_idle (truthful_idle E)) hstart
  obtain ⟨n, hshared₁, hrunning₁, hothers₁⟩ := advance_bind (NodeRequest.program E {}) exec hrunning₀ hwitness
  rw [hrest] at hrunning₁
  have hfirst : Permitted (NodeRequest.program E {}) exec (fun _ => True) OneLock w₀ (List.replicate n (.advance false)) := by
    refine one_lock_alone hgood₀ ?_ n
    intro j _
    rfl
  have hgood₁ := invariant (node_protects E {} respond) (fun r _ => nodeProgram_keeps E {} r) hgood₀ hfirst
  obtain ⟨w₁, hw₁⟩ : ∃ w₁, w₁ = after (NodeRequest.program E {}) exec w₀ (List.replicate n (.advance false)) := ⟨_, rfl⟩
  rw [← hw₁] at hshared₁ hrunning₁ hothers₁ hgood₁
  -- the second one publishes, while the first is about to look for a receipt
  have hrunning₁' : w₁.running true = some ⟨.publish now "rekor" "", ⟨{ store := {} }, []⟩,
      nodePublishIfNew E now "rekor" ""⟩ := hothers₁ true (by decide)
  obtain ⟨k, t₂, hw₂⟩ := advance_alone (NodeRequest.program E {}) exec hrunning₁'
  have hsecond : Permitted (NodeRequest.program E {}) exec (fun _ => True) OneLock w₁ (List.replicate k (.advance true)) := by
    refine one_lock_alone hgood₁ ?_ k
    intro j hj
    obtain rfl : j = false := by simpa using hj
    obtain ⟨-, -, hkeeps⟩ := hgood₁.running false _ hrunning₁
    exact hkeeps.1
  have hgood₂ := invariant (node_protects E {} respond) (fun r _ => nodeProgram_keeps E {} r) hgood₁ hsecond
  obtain ⟨w₂, hw₂'⟩ : ∃ w₂, w₂ = after (NodeRequest.program E {}) exec w₁ (List.replicate k (.advance true)) := ⟨_, rfl⟩
  rw [← hw₂'] at hw₂ hgood₂
  let row : PublicLogReceipt := PublicLogResponse.receipt (respond [("rekor", sth)]) "rekor" sth ""
  let rail : Rail .memory := ⟨m₂, insertNew ∅ (sth.publication "rekor") row, [("rekor", sth)]⟩
  have hshared₂ : w₂.view.shared = ⟨rail, []⟩ := by
    rw [hw₂, hshared₁]
    exact run_publish_alone hlog hsth
  have hrunning₂ : w₂.running false = some ⟨.checkpoint now (some "rekor") false cp, ⟨{ store := {} }, []⟩,
      attachPublicLog (some "rekor") (stampResponse cp result)⟩ := by
    rw [hw₂]
    exact hrunning₁
  -- the first one finds it
  obtain ⟨l, t₃, hw₃⟩ := advance_alone (NodeRequest.program E {}) exec hrunning₂
  have hthird : Permitted (NodeRequest.program E {}) exec (fun _ => True) OneLock w₂ (List.replicate l (.advance false)) := by
    refine one_lock_alone hgood₂ ?_ l
    intro j hj
    obtain rfl : j = true := by simpa using hj
    have htrail : w₂.view.trails true = [] := by
      simp [hw₂]
    rw [htrail]
    rfl
  have hquery : Backend.memory.getPublicLogReceiptCovering rail.receipts "rekor" (stampResponse cp result).treeSize =
      some row := covering_only rfl (hsize.trans hle)
  have hend : (attachPublicLog (some "rekor") (stampResponse cp result)).run exec w₂.view.shared =
      (.ok (.stamped ((stampResponse cp result).cover row)), ⟨rail, []⟩) := by
    rw [hshared₂]
    exact run_attachPublicLog hquery
  have hlock : Permitted (NodeRequest.program E {}) exec (fun _ => True) OneLock (freshNode .memory [])
      ([.start false (.checkpoint now (some "rekor") false cp), .start true (.publish now "rekor" "")] ++
        (List.replicate n (.advance false) ++ (List.replicate k (.advance true) ++ List.replicate l (.advance false)))) := by
    refine Permitted.append _ _ hstart (Permitted.append _ _ hfirst (Permitted.append _ _ ?_ ?_))
    · exact hw₁ ▸ hsecond
    · exact hw₁ ▸ hw₂' ▸ hthird
  have houtcome : ∃ o ∈ (after (NodeRequest.program E {}) exec (freshNode .memory [])
      ([.start false (.checkpoint now (some "rekor") false cp), .start true (.publish now "rekor" "")] ++
        (List.replicate n (.advance false) ++ (List.replicate k (.advance true) ++ List.replicate l (.advance false))))).outcomes,
      o.result = .ok (.stamped ((stampResponse cp result).cover row)) := by
    have houtcomes := congrArg World.outcomes hw₃
    rw [hw₂', hw₁] at houtcomes
    rw [after, Run.after_append, Run.after_append, Run.after_append]
    refine ⟨_, (congrArg _ houtcomes).mpr (List.mem_append_right _ (List.mem_singleton_self _)), ?_⟩
    rw [← hw₁, ← hw₂']
    exact congrArg Prod.fst hend
  obtain ⟨o, ho, hresult⟩ := houtcome
  refine ⟨_, o, ho, _, row.entry, hresult, rfl, ?_⟩
  exact ((public_log_truthful E {} respond [] _ hlock).2.2 o ho _ hresult row.entry rfl).2.1

end Invariant

end CapsuleAnchor

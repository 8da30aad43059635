import CapsuleAnchor.Dedup
import CapsuleAnchor.Instances

/-!
# One entry for a statement, across instances

An instance looks a statement up, appends it and caches its receipt in separate steps, and only its own lock keeps them
together.  Another instance may look in between: both miss, and both append (`statement_appended_twice`).

`Pending` is the gap: a lookup that missed, and no receipt cached yet.  In a schedule where no instance looks up a hash
that another one is pending on (`LooksUpLone`), every hash has one entry and one receipt (`exactly_once`).
-/

namespace CapsuleAnchor

open Interleaving

variable {ι : Type} [DecidableEq ι] {E : Env} {cfg : Config}

/-- The call missed this hash, and has not cached a receipt. -/
def Pending (t : CallTrail) (k : Digest) : Prop := ⟨.getStatement k, none⟩ ∈ t ∧ filed t = []

/-- No other instance is pending on a hash that is looked up. -/
def LooksUpLone (i : ι) : Call → View ι Call.Ans SqlStore → Prop
  | .getStatement k, v => ∀ j, j ≠ i → ¬ Pending (v.trails j) k
  | _, _ => True

/-- A request of the schedule that does not prune. -/
def Registers (rs : List TimedRequest) (r : TimedRequest) : Prop := r ∈ rs ∧ ∀ seconds, r.2 ≠ .prune seconds

/-- Each statement has one entry; while its row is missing, the one call that is pending on it has appended it. -/
structure Once (E : Env) (cfg : Config) (rs : List TimedRequest) (v : View ι Call.Ans SqlStore) : Prop where
  sound : Sound E v
  ordered : ∀ i, appended (v.trails i) = [] → filed (v.trails i) = []
  lone : ∀ i j k, Pending (v.trails i) k → Pending (v.trails j) k → i = j
  free : ∀ i k, Pending (v.trails i) k → v.shared.submittedStatements.lookup k = none
  entered : ∀ e ∈ v.shared.logEntries, e.kind = logKindScitt →
    (∃ row, v.shared.submittedStatements.lookup e.payloadHash = some row) ∨
      ∃ i, Pending (v.trails i) e.payloadHash ∧ e ∈ appended (v.trails i)
  distinct : ∀ (i j : Nat) (x y : TransparencyLogEntry), v.shared.logEntries[i]? = some x →
    v.shared.logEntries[j]? = some y → x.kind = logKindScitt → y.kind = logKindScitt → x.payloadHash = y.payloadHash → i = j
  found : ∀ k row, ⟨.getStatement k, some row⟩ ∈ v.history → v.shared.submittedStatements.lookup k = some row
  put : ∀ row ∈ filed v.history, v.shared.submittedStatements.lookup row.1 = some row.2
  submitted : ∀ k row, v.shared.submittedStatements.lookup k = some row →
    ∃ r sub, Registers rs r ∧ Prepares E cfg r sub ∧ sub.entryHash = k

section Step

variable {rs : List TimedRequest} {v : View ι Call.Ans SqlStore} {i : ι}

omit [DecidableEq ι] in
theorem once_empty : Once E cfg rs (⟨{}, fun _ => [], []⟩ : View ι Call.Ans SqlStore) where
  sound := sound_empty E
  ordered := fun _ _ => rfl
  lone := by
    rintro i j k ⟨hmiss, -⟩
    cases hmiss
  free := fun _ _ _ => rfl
  entered := by
    intro e he
    cases he
  distinct := by
    intro i j x y hx
    simp at hx
  found := by
    intro k row h
    cases h
  put := by
    intro row h
    cases h
  submitted := by
    intro k row h
    cases h

/-- Pending on a hash after one more call: it was pending before, or the call missed it. -/
private theorem pending_extend {t : CallTrail} {c : Call} {x : c.Ans} {k : Digest} (h : Pending (t ++ [⟨c, x⟩]) k) :
    filed t = [] ∧ filed [(⟨c, x⟩ : Σ c : Call, c.Ans)] = [] ∧
      (⟨.getStatement k, none⟩ ∈ t ∨ (⟨c, x⟩ : Σ c : Call, c.Ans) = ⟨.getStatement k, none⟩) := by
  obtain ⟨hmiss, hfiled⟩ := h
  rw [filed_append, List.append_eq_nil_iff] at hfiled
  refine ⟨hfiled.1, hfiled.2, ?_⟩
  rcases List.mem_append.1 hmiss with hold | hnew
  · exact .inl hold
  · exact .inr (List.mem_singleton.1 hnew).symm

/-- A call that touches neither the cache nor the log, and is no lookup that missed. -/
theorem Once.extend_quiet (h : Once E cfg rs v) {e : Σ c : Call, c.Ans} {s : SqlStore} (hsound : Sound E (v.extend i e s))
    (hlog : s.logEntries = v.shared.logEntries) (hcache : s.submittedStatements = v.shared.submittedStatements)
    (happended : appended [e] = []) (hfiled : filed [e] = []) (hmissed : ∀ k, e ≠ ⟨.getStatement k, none⟩)
    (hfound : ∀ k row, e = ⟨.getStatement k, some row⟩ → v.shared.submittedStatements.lookup k = some row) :
    Once E cfg rs (v.extend i e s) := by
  have hpending : ∀ j k, Pending ((v.extend i e s).trails j) k ↔ Pending (v.trails j) k := by
    intro j k
    rw [View.trails_extend]
    split
    · rename_i hj
      subst hj
      constructor
      · intro hp
        obtain ⟨hnone, -, hmiss⟩ := pending_extend hp
        rcases hmiss with hmiss | hmiss
        · exact ⟨hmiss, hnone⟩
        · exact absurd hmiss (hmissed k)
      · rintro ⟨hmiss, hnone⟩
        exact ⟨List.mem_append_left _ hmiss, by rw [filed_append, hnone, hfiled]; rfl⟩
    · exact Iff.rfl
  have happ : ∀ j, appended ((v.extend i e s).trails j) = appended (v.trails j) := by
    intro j
    rw [View.trails_extend]
    split
    · rename_i hj
      rw [hj, appended_append, happended, List.append_nil]
    · rfl
  constructor
  · exact hsound
  · intro j hj
    rw [happ] at hj
    have hold := h.ordered j hj
    rw [View.trails_extend]
    split
    · rename_i hji
      rw [hji] at hold
      rw [filed_append, hold, hfiled]
      rfl
    · exact hold
  · intro j j' k hj hj'
    exact h.lone j j' k ((hpending j k).1 hj) ((hpending j' k).1 hj')
  · intro j k hj
    have hfree := h.free j k ((hpending j k).1 hj)
    rw [← hcache] at hfree
    exact hfree
  · intro e' he' hkind
    have hold := h.entered e' (hlog ▸ he') hkind
    rcases hold with ⟨row, hrow⟩ | ⟨j, hj, hmem⟩
    · exact .inl ⟨row, by rw [← hrow, ← hcache]; rfl⟩
    · exact .inr ⟨j, (hpending j _).2 hj, by rw [happ]; exact hmem⟩
  · intro n m x y hx hy
    exact h.distinct n m x y (hlog ▸ hx) (hlog ▸ hy)
  · intro k row hmem
    have hrow : v.shared.submittedStatements.lookup k = some row := by
      rcases List.mem_append.1 hmem with hold | hnew
      · exact h.found k row hold
      · exact hfound k row (List.mem_singleton.1 hnew).symm
    rw [← hcache] at hrow
    exact hrow
  · intro row hrow
    have hold : row ∈ filed v.history := by
      have hmem : row ∈ filed (v.history ++ [e]) := hrow
      rwa [filed_append, hfiled, List.append_nil] at hmem
    have hput := h.put row hold
    rw [← hcache] at hput
    exact hput
  · intro k row hk
    exact h.submitted k row (hcache ▸ hk)

/-- A lookup that misses, while no other call is pending on the hash. -/
theorem Once.extend_missed (h : Once E cfg rs v) {k : Digest}
    (hsound : Sound E (v.extend i ⟨.getStatement k, none⟩ v.shared))
    (hmiss : v.shared.submittedStatements.lookup k = none) (hlone : ∀ j, j ≠ i → ¬ Pending (v.trails j) k) :
    Once E cfg rs (v.extend i ⟨.getStatement k, none⟩ v.shared) := by
  have happ : ∀ j, appended ((v.extend i ⟨.getStatement k, none⟩ v.shared).trails j) = appended (v.trails j) := by
    intro j
    rw [View.trails_extend]
    split
    · rename_i hj
      rw [hj, appended_append]
      exact List.append_nil _
    · rfl
  -- the only hash that becomes pending is `k`, for process `i`
  have hpending : ∀ j k', Pending ((v.extend i ⟨.getStatement k, none⟩ v.shared).trails j) k' →
      Pending (v.trails j) k' ∨ j = i ∧ k' = k := by
    intro j k' hp
    rw [View.trails_extend] at hp
    split at hp
    · rename_i hj
      subst hj
      obtain ⟨hnone, -, hold | hnew⟩ := pending_extend hp
      · exact .inl ⟨hold, hnone⟩
      · obtain ⟨hcall, -⟩ := Sigma.mk.inj hnew
        exact .inr ⟨rfl, (Call.getStatement.inj hcall).symm⟩
    · exact .inl hp
  have hkept : ∀ j k', Pending (v.trails j) k' → Pending ((v.extend i ⟨.getStatement k, none⟩ v.shared).trails j) k' := by
    rintro j k' ⟨hold, hnone⟩
    rw [View.trails_extend]
    split
    · rename_i hj
      subst hj
      exact ⟨List.mem_append_left _ hold, by rw [filed_append, hnone]; rfl⟩
    · exact ⟨hold, hnone⟩
  constructor
  · exact hsound
  · intro j hj
    rw [happ] at hj
    have hold := h.ordered j hj
    rw [View.trails_extend]
    split
    · rename_i hji
      rw [hji] at hold
      rw [filed_append, hold]
      rfl
    · exact hold
  · intro j j' k' hj hj'
    rcases hpending j k' hj with hold | ⟨hji, hk⟩
    · rcases hpending j' k' hj' with hold' | ⟨hji', hk'⟩
      · exact h.lone j j' k' hold hold'
      · by_contra hne
        rw [hk'] at hold
        exact hlone j (hji' ▸ hne) hold
    · rcases hpending j' k' hj' with hold' | ⟨hji', -⟩
      · by_contra hne
        rw [hk] at hold'
        exact hlone j' (hji ▸ Ne.symm hne) hold'
      · rw [hji, hji']
  · intro j k' hj
    rcases hpending j k' hj with hj | ⟨-, rfl⟩
    · exact h.free j k' hj
    · exact hmiss
  · intro e he hkind
    rcases h.entered e he hkind with hrow | ⟨j, hj, hmem⟩
    · exact .inl hrow
    · exact .inr ⟨j, hkept j _ hj, by rw [happ]; exact hmem⟩
  · exact h.distinct
  · intro k' row hmem
    rcases List.mem_append.1 hmem with hold | hnew
    · exact h.found k' row hold
    · cases List.mem_singleton.1 hnew
  · intro row hrow
    have hmem : row ∈ filed (v.history ++ [⟨.getStatement k, none⟩]) := hrow
    have hnil : filed [(⟨.getStatement k, none⟩ : Σ c : Call, c.Ans)] = [] := rfl
    rw [filed_append, hnil, List.append_nil] at hmem
    exact h.put row hmem
  · exact h.submitted

/-- An append that succeeds: a statement was missed by this call, and no entry has its hash yet. -/
theorem Once.extend_appended (h : Once E cfg rs v) {entry : TransparencyLogEntry} {s : SqlStore}
    (hsound : Sound E (v.extend i ⟨.appendEntry entry, .ok ()⟩ s)) (hlog : s.logEntries = v.shared.logEntries ++ [entry])
    (hcache : s.submittedStatements = v.shared.submittedStatements) (hfirst : appended (v.trails i) = [])
    (hmissed : entry.kind = logKindScitt → ⟨.getStatement entry.payloadHash, none⟩ ∈ v.trails i) :
    Once E cfg rs (v.extend i ⟨.appendEntry entry, .ok ()⟩ s) := by
  have hown : (v.extend i ⟨.appendEntry entry, .ok ()⟩ s).trails i = v.trails i ++ [⟨.appendEntry entry, .ok ()⟩] := by
    rw [View.trails_extend, if_pos rfl]
  have hfiled : ∀ j, filed ((v.extend i ⟨.appendEntry entry, .ok ()⟩ s).trails j) = filed (v.trails j) := by
    intro j
    rw [View.trails_extend]
    split
    · rename_i hj
      rw [hj, filed_append]
      exact List.append_nil _
    · rfl
  have hpending : ∀ j k, Pending ((v.extend i ⟨.appendEntry entry, .ok ()⟩ s).trails j) k ↔ Pending (v.trails j) k := by
    intro j k
    unfold Pending
    rw [hfiled, View.trails_extend]
    split
    · rename_i hj
      subst hj
      simp
    · exact Iff.rfl
  -- an entry with the hash of this statement would be cached, or pending on another call
  have hnew : entry.kind = logKindScitt → ∀ e ∈ v.shared.logEntries, e.kind = logKindScitt →
      e.payloadHash ≠ entry.payloadHash := by
    intro hkind e he hekind heq
    have hpend : Pending (v.trails i) entry.payloadHash := ⟨hmissed hkind, h.ordered i hfirst⟩
    rcases h.entered e he hekind with ⟨row, hrow⟩ | ⟨j, hj, hmem⟩
    · rw [heq, h.free i _ hpend] at hrow
      cases hrow
    · rw [heq] at hj
      obtain rfl := h.lone j i _ hj hpend
      rw [hfirst] at hmem
      cases hmem
  constructor
  · exact hsound
  · intro j hj
    rw [hfiled]
    rw [View.trails_extend] at hj
    split at hj
    · rw [appended_append, List.append_eq_nil_iff] at hj
      exact absurd hj.2 (by simp [appended])
    · exact h.ordered j hj
  · intro j j' k hj hj'
    exact h.lone j j' k ((hpending j k).1 hj) ((hpending j' k).1 hj')
  · intro j k hj
    have hfree := h.free j k ((hpending j k).1 hj)
    rw [← hcache] at hfree
    exact hfree
  · intro e he hkind
    have hmem : e ∈ v.shared.logEntries ++ [entry] := hlog ▸ he
    rcases List.mem_append.1 hmem with hold | hlast
    · rcases h.entered e hold hkind with ⟨row, hrow⟩ | ⟨j, hj, hmemj⟩
      · exact .inl ⟨row, by rw [← hrow, ← hcache]; rfl⟩
      · refine .inr ⟨j, (hpending j _).2 hj, ?_⟩
        rw [View.trails_extend]
        split
        · rename_i hji
          rw [hji] at hmemj
          rw [appended_append]
          exact List.mem_append_left _ hmemj
        · exact hmemj
    · obtain rfl := List.mem_singleton.1 hlast
      refine .inr ⟨i, (hpending i _).2 ⟨hmissed hkind, h.ordered i hfirst⟩, ?_⟩
      rw [hown, appended_append]
      exact List.mem_append_right _ (List.mem_singleton_self _)
  · intro n m x y hx hy hkx hky heq
    have hx' : (v.shared.logEntries ++ [entry])[n]? = some x := hlog ▸ hx
    have hy' : (v.shared.logEntries ++ [entry])[m]? = some y := hlog ▸ hy
    rcases getElem?_concat hx' with hx' | ⟨rfl, rfl⟩
    · rcases getElem?_concat hy' with hy' | ⟨rfl, rfl⟩
      · exact h.distinct n m x y hx' hy' hkx hky heq
      · exact absurd heq (hnew hky x (List.mem_of_getElem? hx') hkx)
    · rcases getElem?_concat hy' with hy' | ⟨rfl, rfl⟩
      · exact absurd heq.symm (hnew hkx y (List.mem_of_getElem? hy') hky)
      · rfl
  · intro k row hmem
    have hrow : v.shared.submittedStatements.lookup k = some row := by
      rcases List.mem_append.1 hmem with hold | hlast
      · exact h.found k row hold
      · cases List.mem_singleton.1 hlast
    rw [← hcache] at hrow
    exact hrow
  · intro row hrow
    have hmem : row ∈ filed (v.history ++ [⟨.appendEntry entry, .ok ()⟩]) := hrow
    have hnil : filed [(⟨.appendEntry entry, .ok ()⟩ : Σ c : Call, c.Ans)] = [] := rfl
    rw [filed_append, hnil, List.append_nil] at hmem
    have hput := h.put row hmem
    rw [← hcache] at hput
    exact hput
  · intro k row hk
    exact h.submitted k row (hcache ▸ hk)

/-- The receipt of a statement is cached by the one call that was pending on it. -/
theorem Once.extend_put (h : Once E cfg rs v) {k : Digest} {receipt : CoseReceipt} {leafIndex : Int} {treeSize : Nat}
    {s : SqlStore} (hsound : Sound E (v.extend i ⟨.putStatement k receipt leafIndex treeSize, ()⟩ s))
    (hlog : s.logEntries = v.shared.logEntries)
    (hcache : s.submittedStatements = insertNew v.shared.submittedStatements k (receipt, leafIndex, treeSize))
    (hpend : Pending (v.trails i) k) (hown : ∃ entry, appended (v.trails i) = [entry] ∧ entry.payloadHash = k)
    (hsubmitted : ∃ r sub, Registers rs r ∧ Prepares E cfg r sub ∧ sub.entryHash = k) :
    Once E cfg rs (v.extend i ⟨.putStatement k receipt leafIndex treeSize, ()⟩ s) := by
  have hfree := h.free i k hpend
  have hlookup : ∀ k', s.submittedStatements.lookup k' =
      if k' = k then some (receipt, leafIndex, treeSize) else v.shared.submittedStatements.lookup k' := by
    intro k'
    rw [hcache, lookup_insertNew, hfree]
    rfl
  have hkept : ∀ k' row, v.shared.submittedStatements.lookup k' = some row → s.submittedStatements.lookup k' = some row := by
    intro k' row hrow
    rw [hlookup, if_neg]
    · exact hrow
    · rintro rfl
      rw [hfree] at hrow
      cases hrow
  -- process `i` is pending no more, the others are as before
  have hdone : ∀ k', ¬ Pending ((v.extend i ⟨.putStatement k receipt leafIndex treeSize, ()⟩ s).trails i) k' := by
    rintro k' ⟨-, hnone⟩
    rw [View.trails_extend, if_pos rfl, filed_append, List.append_eq_nil_iff] at hnone
    exact absurd hnone.2 (by simp [filed])
  have hother : ∀ j, j ≠ i →
      (v.extend i ⟨.putStatement k receipt leafIndex treeSize, ()⟩ s).trails j = v.trails j := by
    intro j hj
    rw [View.trails_extend, if_neg hj]
  have hpending : ∀ j k', Pending ((v.extend i ⟨.putStatement k receipt leafIndex treeSize, ()⟩ s).trails j) k' →
      j ≠ i ∧ Pending (v.trails j) k' := by
    intro j k' hj
    by_cases hji : j = i
    · subst hji
      exact absurd hj (hdone k')
    · rw [hother j hji] at hj
      exact ⟨hji, hj⟩
  constructor
  · exact hsound
  · intro j hj
    by_cases hji : j = i
    · subst hji
      obtain ⟨entry, happended, -⟩ := hown
      rw [View.trails_extend, if_pos rfl, appended_append, happended] at hj
      cases hj
    · rw [hother j hji] at hj ⊢
      exact h.ordered j hj
  · intro j j' k' hj hj'
    exact h.lone j j' k' (hpending j k' hj).2 (hpending j' k' hj').2
  · intro j k' hj
    obtain ⟨hji, hold⟩ := hpending j k' hj
    have hne : k' ≠ k := by
      rintro rfl
      exact hji (h.lone j i k' hold hpend)
    exact ((hlookup k').trans (if_neg hne)).trans (h.free j k' hold)
  · intro e he hkind
    rcases h.entered e (hlog ▸ he) hkind with ⟨row, hrow⟩ | ⟨j, hj, hmem⟩
    · exact .inl ⟨row, hkept _ row hrow⟩
    · by_cases hji : j = i
      · subst hji
        obtain ⟨entry, happended, hhash⟩ := hown
        rw [happended, List.mem_singleton] at hmem
        subst hmem
        exact .inl ⟨_, by rw [hhash]; exact (hlookup k).trans (if_pos rfl)⟩
      · refine .inr ⟨j, ?_, ?_⟩
        · rw [hother j hji]
          exact hj
        · rw [hother j hji]
          exact hmem
  · intro n m x y hx hy
    exact h.distinct n m x y (hlog ▸ hx) (hlog ▸ hy)
  · intro k' row hmem
    rcases List.mem_append.1 hmem with hold | hlast
    · exact hkept k' row (h.found k' row hold)
    · cases List.mem_singleton.1 hlast
  · intro row hrow
    have hmem : row ∈ filed (v.history ++ [⟨.putStatement k receipt leafIndex treeSize, ()⟩]) := hrow
    rw [filed_append] at hmem
    rcases List.mem_append.1 hmem with hold | hlast
    · exact hkept _ _ (h.put row hold)
    · obtain rfl : row = (k, receipt, leafIndex, treeSize) := List.mem_singleton.1 hlast
      exact (hlookup k).trans (if_pos rfl)
  · intro k' row hk'
    have hrow := (hlookup k').symm.trans hk'
    split at hrow
    · rename_i heq
      rw [heq]
      exact hsubmitted
    · exact h.submitted k' row hrow

/-- A call that ends owes nothing: whatever it appended is cached. -/
theorem Once.clear (h : Once E cfg rs v) (hsettled : Settled (v.trails i)) : Once E cfg rs (v.clear i) := by
  have hpending : ∀ j k, Pending ((v.clear i).trails j) k → j ≠ i ∧ Pending (v.trails j) k := by
    intro j k hj
    rw [View.trails_clear] at hj
    split at hj
    · cases hj.1
    · exact ⟨‹_›, hj⟩
  refine ⟨h.sound.clear E i, ?_, ?_, ?_, ?_, h.distinct, h.found, h.put, h.submitted⟩
  · intro j hj
    rw [View.trails_clear] at hj ⊢
    split
    · rfl
    · rename_i hji
      rw [if_neg hji] at hj
      exact h.ordered j hj
  · intro j j' k hj hj'
    exact h.lone j j' k (hpending j k hj).2 (hpending j' k hj').2
  · intro j k hj
    exact h.free j k (hpending j k hj).2
  · intro e he hkind
    rcases h.entered e he hkind with hrow | ⟨j, hj, hmem⟩
    · exact .inl hrow
    · by_cases hji : j = i
      · subst hji
        obtain ⟨row, hrow, -⟩ := hsettled.cached e hmem hkind
        rw [hj.2] at hrow
        cases hrow
      · refine .inr ⟨j, ?_, ?_⟩
        · rw [View.trails_clear, if_neg hji]
          exact hj
        · rw [View.trails_clear, if_neg hji]
          exact hmem

end Step

theorem once_protects (rs : List TimedRequest) : Protects (SqlStore.exec E) (serviceContract E cfg) (Answers E cfg)
    (Registers rs) LooksUpLone (fun v : View ι Call.Ans SqlStore => Once E cfg rs v) where
  call := by
    intro v i r c h htrail hregisters hmay hallowed
    have hprotects : Protects (SqlStore.exec E) (serviceContract E cfg) (Answers E cfg) (Registers rs) LooksUpLone
        (fun v : View ι Call.Ans SqlStore => Sound E v) := instances_protect E cfg
    obtain ⟨hcounts, hsound⟩ := hprotects.call v i r c h.sound htrail hregisters hmay hallowed
    refine ⟨hcounts, ?_⟩
    have hquiet : (SqlStore.exec E c v.shared).2.logEntries = v.shared.logEntries →
        (SqlStore.exec E c v.shared).2.submittedStatements = v.shared.submittedStatements →
        appended [⟨c, (SqlStore.exec E c v.shared).1⟩] = [] → filed [⟨c, (SqlStore.exec E c v.shared).1⟩] = [] →
        (∀ k, c ≠ .getStatement k) →
        Once E cfg rs (v.extend i ⟨c, (SqlStore.exec E c v.shared).1⟩ (SqlStore.exec E c v.shared).2) := by
      intro hlog hcache happended hfiled hc
      refine h.extend_quiet hsound hlog hcache happended hfiled ?_ ?_
      · intro k heq
        exact hc k (Sigma.mk.inj heq).1
      · intro k row heq
        exact absurd (Sigma.mk.inj heq).1 (hc k)
    cases c with
    | appendEntry entry =>
      obtain ⟨hfirst, hbuilt, hmissed⟩ := hmay
      rcases exec_appendEntry E entry v.shared with ⟨hexec, -⟩ | ⟨hexec, -⟩
      · rw [hexec] at hsound hquiet ⊢
        refine hquiet rfl rfl rfl rfl ?_
        intro k heq
        cases heq
      · rw [hexec] at hsound ⊢
        refine h.extend_appended hsound rfl rfl hfirst ?_
        intro hkind
        obtain ⟨sub, -, hhash, hmem⟩ := hmissed hkind
        rw [hhash]
        exact hmem
    | putStatement k receipt leafIndex treeSize =>
      obtain ⟨hfiled, hcovers, ⟨sub, hsub, rfl, hmiss⟩, -⟩ := hmay
      obtain ⟨entry, es, n, loggedAt, grade, continuity, happended, -, hhash, -⟩ := hcovers
      exact h.extend_put hsound rfl rfl ⟨hmiss, hfiled⟩ ⟨entry, happended, hhash⟩ ⟨r, sub, hregisters, hsub, rfl⟩
    | getStatement k =>
      change Once E cfg rs (v.extend i ⟨.getStatement k, v.shared.submittedStatements.lookup k⟩ v.shared)
      change Sound E (v.extend i ⟨.getStatement k, v.shared.submittedStatements.lookup k⟩ v.shared) at hsound
      cases hrow : v.shared.submittedStatements.lookup k with
      | none =>
        rw [hrow] at hsound
        exact h.extend_missed hsound hrow hallowed
      | some row =>
        rw [hrow] at hsound
        refine h.extend_quiet hsound rfl rfl rfl rfl ?_ ?_
        · intro k' heq
          cases heq
        · rintro k' row' ⟨⟩
          exact hrow
    | pruneStatementsOlderThan cutoff =>
      obtain ⟨seconds, hr⟩ := hmay
      exact absurd hr (hregisters.2 seconds)
    | putCheckpointRecord logId mmrSize record =>
      obtain ⟨records, events, hrecord⟩ := putCheckpointRecord_eq v.shared logId mmrSize record
      refine hquiet ?_ ?_ rfl rfl ?_
      · simp only [SqlStore.exec, hrecord]
      · simp only [SqlStore.exec, hrecord]
      · intro k heq
        cases heq
    | _ =>
      refine hquiet rfl rfl rfl rfl ?_
      intro k heq
      cases heq
  finish := by
    intro v i r result h hregisters hended
    refine h.clear ?_
    cases result with
    | ok reply => exact hended.1
    | error e => exact hended

/-! ### Schedules -/

omit [DecidableEq ι] in
/-- What a registration returned is the row of its entry hash. -/
theorem Once.row_of_registered {rs : List TimedRequest} (huntagged : SigStructureUntagged E)
    (hinj : Set.InjOn E.sha256 (hashed E rs)) {w : ServiceWorld ι}
    (hgood : Good (serviceContract E cfg) (Answers E cfg) (Registers rs) (Once E cfg rs) w)
    {o : Outcome ι Call.Ans ServiceError Reply TimedRequest SqlStore} (ho : o ∈ w.outcomes) {b : Bytes}
    {grade : Option String} {cp : Option Checkpoint} (hsubmission : o.request.2.submission E = some (b, grade, cp))
    {result : StatementRegistration} (hresult : o.result = .ok (.registered result)) :
    w.view.shared.submittedStatements.lookup (computeEntryHash E b).1 = some result.row := by
  obtain ⟨hregisters, htrail, -, hended⟩ := hgood.ended o ho
  rw [hresult] at hended
  obtain ⟨sub, ⟨b', grade', cp', hsubmission', hprep⟩, hregistered⟩ := hended.2.1
  obtain ⟨rfl, rfl, rfl⟩ : b = b' ∧ grade = grade' ∧ cp = cp' := by simpa using hsubmission.symm.trans hsubmission'
  have hsub := prepare_ok E hprep
  rw [hsub.computeEntryHash E]
  rcases hregistered with ⟨k, -, rfl | ⟨hscheme, rfl⟩, hrow⟩ | ⟨-, hfiled⟩
  · exact hgood.shared.found _ _ (htrail hrow)
  · -- no statement of the schedule was filed under the envelope hash of another one
    have hlookup := hgood.shared.found _ _ (htrail hrow)
    obtain ⟨r₀, sub₀, hr₀, ⟨b₀, grade₀, cp₀, hsubmission₀, hprep₀⟩, hkey⟩ := hgood.shared.submitted _ _ hlookup
    have hb : b ∈ hashed E rs := ⟨o.request, hregisters.1, b, grade, cp, hsubmission, .inl rfl⟩
    have hb₀ : (entryHashPreimage E b₀).1 ∈ hashed E rs := ⟨r₀, hr₀.1, b₀, grade₀, cp₀, hsubmission₀, .inr rfl⟩
    have hsig : (entryHashPreimage E b).2 = .sigStructure := by rw [← hsub.preimage, hscheme]
    have hne := entryHash_ne_legacy E huntagged hinj hb hb₀ hsig
    rw [(prepare_ok E hprep₀).computeEntryHash E, hkey, hsub.legacyHash] at hne
    exact absurd rfl hne
  · have hput : (sub.entryHash, result.row) ∈ filed w.view.history := by
      have hmem : (sub.entryHash, result.row) ∈ filed o.trail := by
        rw [hfiled]
        exact List.mem_singleton_self _
      obtain ⟨e, he, hsome⟩ := List.mem_filterMap.1 hmem
      exact List.mem_filterMap.2 ⟨e, htrail he, hsome⟩
    exact hgood.shared.put _ hput

/-- An instance that works alone meets no one in the gap. -/
private theorem permitted_alone {w : ServiceWorld ι} {i : ι} (halone : ∀ j, j ≠ i → w.view.trails j = []) (n : Nat) :
    Permitted (fun r => r.2.program E cfg r.1) (SqlStore.exec E) (fun _ => True) LooksUpLone w
      (List.replicate n (.advance i)) := by
  induction n generalizing w with
  | zero =>
    intro e he
    cases he
  | succ n ih =>
    intro e he
    rcases List.mem_cons.1 he with rfl | he
    · intro p c k _ _
      cases c with
      | getStatement k =>
        intro j hj hpending
        rw [halone j hj] at hpending
        cases hpending.1
      | _ => trivial
    · have hnext : ∀ j, j ≠ i →
          (act (fun r => r.2.program E cfg r.1) (SqlStore.exec E) w (.advance i)).view.trails j = [] :=
        fun j hj => (trails_advance hj).trans (halone j hj)
      exact ih hnext e he

end CapsuleAnchor

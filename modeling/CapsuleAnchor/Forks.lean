import CapsuleAnchor.Continuity
import CapsuleAnchor.Instances

/-!
# One extension for a tip, across instances

An instance reads the tip of a log, checks a checkpoint against it, signs the continuity assertion, caches the receipt
and overwrites the tip, all in separate steps; nothing compares the tip again, as `put_sth` does with the tree head.  Two
instances that read one tip sign two extensions of it (`tip_forked`), and the smaller one may be written last.

In a schedule where a tip is signed over and written only while it is the one that was read (`TipCompared`), the tips
grow and no two assertions fork (`signed_over_current_tip`).
-/

namespace CapsuleAnchor

open Interleaving

variable {ι : Type} [DecidableEq ι] {E : Env} {cfg : Config}

/-- The continuity assertions on the receipts that were cached. -/
def assertions (t : CallTrail) : List ContinuityAssertion := (filed t).filterMap fun row => row.2.1.continuity

@[simp] theorem assertions_append (t u : CallTrail) : assertions (t ++ u) = assertions t ++ assertions u := by
  rw [assertions, filed_append, List.filterMap_append]
  rfl

theorem mem_assertions {t : CallTrail} {a : ContinuityAssertion} :
    a ∈ assertions t ↔ ∃ row ∈ filed t, row.2.1.continuity = some a := List.mem_filterMap

/-- The call has signed the assertion, and has not moved the tip. -/
def Owes (t : CallTrail) (a : ContinuityAssertion) : Prop := a ∈ assertions t ∧ tipsMoved t = []

/-- The tip that the call read is the stored one. -/
def TipUnmoved (t : CallTrail) (s : SqlStore) (logId : String) : Prop :=
  ∀ tip, (logId, tip) ∈ tipsRead t → s.checkpointWitnesses.lookup logId = tip

/-- An assertion is signed over the stored tip, over which no other instance has signed another checkpoint that it has
still to write; a tip is written over the one that was read, or over itself. -/
def TipCompared (i : ι) : Call → View ι Call.Ans SqlStore → Prop
  | .putStatement _ receipt _ _, v => ∀ a, receipt.continuity = some a → TipUnmoved (v.trails i) v.shared a.logId ∧
    ∀ j, j ≠ i → ∀ a', Owes (v.trails j) a' → a'.logId = a.logId → a'.mmrSize = a.mmrSize ∧ a'.root = a.root
  | .putCheckpointWitness logId witness, v =>
    TipUnmoved (v.trails i) v.shared logId ∨ v.shared.checkpointWitnesses.lookup logId = some witness
  | _, _ => True

/-- A receipt that was cached or returned carries the assertion. -/
def OnReceipt (w : ServiceWorld ι) (a : ContinuityAssertion) : Prop :=
  a ∈ assertions w.view.history ∨
    ∃ o ∈ w.outcomes, ∃ result, o.result = .ok (.registered result) ∧ result.receipt.continuity = some a

/-- No two receipts extend one checkpoint of a log differently. -/
def ForkFree (w : ServiceWorld ι) : Prop :=
  ∀ a a', OnReceipt w a → OnReceipt w a' → a.logId = a'.logId → a.prevSize = a'.prevSize →
    a.mmrSize = a'.mmrSize ∧ a.root = a'.root

/-- No tip is lost, or moves to a smaller size. -/
def TipsForward (tips tips' : Dict String CheckpointWitness) : Prop :=
  ∀ logId tip, tips.lookup logId = some tip → ∃ tip', tips'.lookup logId = some tip' ∧ tip.mmrSize ≤ tip'.mmrSize

theorem TipsLE.forward {tips tips' : Dict String CheckpointWitness} (h : TipsLE tips tips') : TipsForward tips tips' := by
  intro logId tip htip
  obtain ⟨tip', htip', hle⟩ := h logId tip htip
  refine ⟨tip', htip', ?_⟩
  rcases hle with rfl | hlt
  · exact Nat.le_refl _
  · exact Nat.le_of_lt hlt

/-- Every assertion starts behind the tip of its log, or its call has still to write it. -/
structure Unforked (E : Env) (v : View ι Call.Ans SqlStore) : Prop where
  sound : Sound E v
  forward : ∀ a ∈ assertions v.history, a.prevSize < a.mmrSize
  passed : ∀ a ∈ assertions v.history,
    (∃ tip, v.shared.checkpointWitnesses.lookup a.logId = some tip ∧ a.prevSize < tip.mmrSize) ∨ ∃ j, Owes (v.trails j) a
  distinct : ∀ a ∈ assertions v.history, ∀ a' ∈ assertions v.history, a.logId = a'.logId → a.prevSize = a'.prevSize →
    a.mmrSize = a'.mmrSize ∧ a.root = a'.root
  cached : ∀ k row, v.shared.submittedStatements.lookup k = some row → (k, row) ∈ filed v.history
  found : ∀ k row, ⟨.getStatement k, some row⟩ ∈ v.history → (k, row) ∈ filed v.history

section Step

variable {v : View ι Call.Ans SqlStore} {i : ι} {e : Σ c : Call, c.Ans} {s : SqlStore}

omit [DecidableEq ι] in
theorem unforked_empty : Unforked E (⟨{}, fun _ => [], []⟩ : View ι Call.Ans SqlStore) where
  sound := sound_empty E
  forward := by
    intro a ha
    cases ha
  passed := by
    intro a ha
    cases ha
  distinct := by
    intro a ha
    cases ha
  cached := by
    intro k row h
    cases h
  found := by
    intro k row h
    cases h

/-- What a call that signs nothing has to keep. -/
private theorem Unforked.extend (h : Unforked E v) (hsound : Sound E (v.extend i e s)) (hfiled : filed [e] = [])
    (hpassed : ∀ a ∈ assertions v.history,
      (∃ tip, s.checkpointWitnesses.lookup a.logId = some tip ∧ a.prevSize < tip.mmrSize) ∨
        ∃ j, Owes (v.trails j) a ∧ (j = i → tipsMoved [e] = []))
    (hcached : ∀ k row, s.submittedStatements.lookup k = some row → v.shared.submittedStatements.lookup k = some row)
    (hfound : ∀ k row, e = ⟨.getStatement k, some row⟩ → v.shared.submittedStatements.lookup k = some row) :
    Unforked E (v.extend i e s) := by
  have hall : filed (v.history ++ [e]) = filed v.history := by rw [filed_append, hfiled, List.append_nil]
  have hassertions : assertions (v.history ++ [e]) = assertions v.history := by rw [assertions, hall, assertions]
  constructor
  · exact hsound
  · intro a ha
    exact h.forward a (hassertions ▸ ha)
  · intro a ha
    rcases hpassed a (hassertions ▸ ha) with hbehind | ⟨j, ⟨hsigned, hunmoved⟩, hquiet⟩
    · exact .inl hbehind
    · refine .inr ⟨j, ?_⟩
      rw [View.trails_extend]
      split
      · rename_i hj
        rw [← hj]
        refine ⟨?_, ?_⟩
        · rw [assertions_append]
          exact List.mem_append_left _ hsigned
        · rw [tipsMoved_append, hunmoved, hquiet hj, List.append_nil]
      · exact ⟨hsigned, hunmoved⟩
  · intro a ha a' ha'
    exact h.distinct a (hassertions ▸ ha) a' (hassertions ▸ ha')
  · intro k row hk
    rw [show (v.extend i e s).history = v.history ++ [e] from rfl, hall]
    exact h.cached k row (hcached k row hk)
  · intro k row hmem
    rw [show (v.extend i e s).history = v.history ++ [e] from rfl, hall]
    rcases List.mem_append.1 hmem with hold | hnew
    · exact h.found k row hold
    · exact h.cached k row (hfound k row (List.mem_singleton.1 hnew).symm)

/-- A call that writes neither the cache nor a tip. -/
private theorem Unforked.extend_unmoved (h : Unforked E v) (hsound : Sound E (v.extend i e s)) (hfiled : filed [e] = [])
    (hmoved : tipsMoved [e] = []) (htips : s.checkpointWitnesses = v.shared.checkpointWitnesses)
    (hcached : ∀ k row, s.submittedStatements.lookup k = some row → v.shared.submittedStatements.lookup k = some row)
    (hfound : ∀ k row, e = ⟨.getStatement k, some row⟩ → v.shared.submittedStatements.lookup k = some row) :
    Unforked E (v.extend i e s) := by
  refine h.extend hsound hfiled ?_ hcached hfound
  intro a ha
  rcases h.passed a ha with hbehind | ⟨j, howes⟩
  · left
    rw [htips]
    exact hbehind
  · exact .inr ⟨j, howes, fun _ => hmoved⟩

/-- Only `put_checkpoint_witness` moves a tip. -/
theorem tips_exec (c : Call) (s : SqlStore) (h : tipsMoved [⟨c, (SqlStore.exec E c s).1⟩] = []) :
    (SqlStore.exec E c s).2.checkpointWitnesses = s.checkpointWitnesses := by
  cases c with
  | appendEntry entry =>
    rcases exec_appendEntry E entry s with ⟨hexec, -⟩ | ⟨hexec, -⟩
    · rw [hexec]
    · rw [hexec]
  | putCheckpointWitness logId witness => simp [tipsMoved] at h
  | putCheckpointRecord logId mmrSize record =>
    obtain ⟨records, events, hrecord⟩ := putCheckpointRecord_eq s logId mmrSize record
    simp only [SqlStore.exec, hrecord]
  | _ => rfl

/-- What a call that may write a tip does to the tips: nothing, or it replaces the one that it read by a larger one. -/
theorem tipsLE_of_compared {t : CallTrail} {s : SqlStore} {logId : String} {witness : CheckpointWitness}
    (hadvances : Advances t logId witness)
    (hcompared : TipUnmoved t s logId ∨ s.checkpointWitnesses.lookup logId = some witness) :
    TipsLE s.checkpointWitnesses (s.checkpointWitnesses.insert logId witness) := by
  rcases hcompared with hunmoved | hsame
  · obtain ⟨⟨tip, hread, hgrow⟩, -⟩ := hadvances
    refine TipsLE.insert ?_
    intro prev hprev
    refine hgrow prev ?_
    rw [← hunmoved tip hread, hprev]
  · intro id tip htip
    by_cases hid : id = logId
    · subst hid
      obtain rfl : witness = tip := Option.some.inj (hsame.symm.trans htip)
      exact ⟨witness, AList.lookup_insert _, .inl rfl⟩
    · exact ⟨tip, by rw [AList.lookup_insert_ne hid, htip], .inl rfl⟩

/-- A tip is written: whoever had signed over the one before is behind the new one, the writer included. -/
private theorem Unforked.extend_moved (h : Unforked E v) {logId : String} {witness : CheckpointWitness}
    (hsound : Sound E (v.extend i ⟨.putCheckpointWitness logId witness, ()⟩ s))
    (htips : s.checkpointWitnesses = v.shared.checkpointWitnesses.insert logId witness)
    (hcache : s.submittedStatements = v.shared.submittedStatements) (hadvances : Advances (v.trails i) logId witness)
    (hle : TipsLE v.shared.checkpointWitnesses (v.shared.checkpointWitnesses.insert logId witness)) :
    Unforked E (v.extend i ⟨.putCheckpointWitness logId witness, ()⟩ s) := by
  refine h.extend hsound rfl ?_ ?_ fun k row heq => Call.noConfusion (Sigma.mk.inj heq).1
  · intro a ha
    rw [htips]
    rcases h.passed a ha with ⟨old, hold, hbehind⟩ | ⟨j, howes⟩
    · obtain ⟨tip', htip', hgrow'⟩ := hle a.logId old hold
      refine .inl ⟨tip', htip', ?_⟩
      rcases hgrow' with rfl | hgrow'
      · exact hbehind
      · exact hbehind.trans hgrow'
    · by_cases hj : j = i
      · subst hj
        obtain ⟨row, hrow, hcontinuity⟩ := mem_assertions.1 howes.1
        obtain ⟨hid, hsize⟩ := hadvances.2 row hrow a hcontinuity
        refine .inl ⟨witness, ?_, ?_⟩
        · rw [hid]
          exact AList.lookup_insert _
        · rw [← hsize]
          exact h.forward a ha
      · exact .inr ⟨j, howes, fun hji => absurd hji hj⟩
  · intro k row hk
    rw [← hcache]
    exact hk

/-- A receipt is cached: an assertion on it starts at the stored tip, which every assertion before it has passed. -/
private theorem Unforked.extend_put (h : Unforked E v) {k : Digest} {receipt : CoseReceipt} {leafIndex : Int}
    {treeSize : Nat} (hsound : Sound E (v.extend i ⟨.putStatement k receipt leafIndex treeSize, ()⟩ s))
    (htips : s.checkpointWitnesses = v.shared.checkpointWitnesses)
    (hcache : s.submittedStatements = insertNew v.shared.submittedStatements k (receipt, leafIndex, treeSize))
    (hfiled : filed (v.trails i) = []) (hbridged : ∀ a, receipt.continuity = some a → Bridged (v.trails i) a)
    (hunmoved : tipsMoved (v.trails i) = []) (hcompared : TipCompared i (.putStatement k receipt leafIndex treeSize) v) :
    Unforked E (v.extend i ⟨.putStatement k receipt leafIndex treeSize, ()⟩ s) := by
  obtain ⟨e, he⟩ : ∃ e : Σ c : Call, c.Ans, e = ⟨.putStatement k receipt leafIndex treeSize, ()⟩ := ⟨_, rfl⟩
  have hnew : assertions [e] = receipt.continuity.toList := by
    rw [he]
    cases hcontinuity : receipt.continuity with
    | none => simp [assertions, filed, hcontinuity]
    | some a => simp [assertions, filed, hcontinuity]
  have hmoves : tipsMoved (v.trails i ++ [e]) = [] := by
    rw [tipsMoved_append, hunmoved, he]
    rfl
  rw [← he] at hsound ⊢
  -- the new assertion is over the stored tip
  have hover : ∀ a, receipt.continuity = some a → a.prevSize < a.mmrSize ∧
      ∃ tip, v.shared.checkpointWitnesses.lookup a.logId = some tip ∧ a.prevSize = tip.mmrSize := by
    intro a ha
    obtain ⟨prev, hprev, hsize, hextends⟩ := hbridged a ha
    exact ⟨hextends, prev, (hcompared a ha).1 _ hprev, hsize⟩
  -- an older assertion over the same tip is owed by another call, and names the same checkpoint
  have hagree : ∀ a, receipt.continuity = some a → ∀ a' ∈ assertions v.history, a'.logId = a.logId →
      a'.prevSize = a.prevSize → a'.mmrSize = a.mmrSize ∧ a'.root = a.root := by
    intro a ha a' ha' hid hprev
    obtain ⟨-, tip, hstored, hsize⟩ := hover a ha
    rcases h.passed a' ha' with ⟨tip', htip', hbehind⟩ | ⟨j, howes⟩
    · rw [hid, hstored] at htip'
      obtain rfl := Option.some.inj htip'
      omega
    · refine (hcompared a ha).2 j ?_ a' howes hid
      rintro rfl
      have hmem := howes.1
      rw [assertions, hfiled] at hmem
      cases hmem
  have hmem : ∀ a ∈ assertions (v.history ++ [e]), a ∈ assertions v.history ∨ receipt.continuity = some a := by
    intro a ha
    rw [assertions_append, hnew, List.mem_append, Option.mem_toList] at ha
    exact ha
  have hfiled' : filed (v.history ++ [e]) = filed v.history ++ [(k, receipt, leafIndex, treeSize)] := by
    rw [filed_append, he]
    rfl
  constructor
  · exact hsound
  · intro a ha
    rcases hmem a ha with hold | hsigned
    · exact h.forward a hold
    · exact (hover a hsigned).1
  · intro a ha
    rcases hmem a ha with hold | hsigned
    · rcases h.passed a hold with hbehind | ⟨j, howes⟩
      · left
        rw [show (v.extend i e s).shared = s from rfl, htips]
        exact hbehind
      · refine .inr ⟨j, ?_⟩
        rw [View.trails_extend]
        split
        · rename_i hj
          rw [← hj] at hmoves ⊢
          refine ⟨?_, hmoves⟩
          rw [assertions_append]
          exact List.mem_append_left _ howes.1
        · exact howes
    · refine .inr ⟨i, ?_⟩
      rw [View.trails_extend, if_pos rfl]
      refine ⟨?_, hmoves⟩
      rw [assertions_append, hnew, hsigned]
      exact List.mem_append_right _ (List.mem_singleton_self _)
  · intro a ha a' ha' hid hprev
    rcases hmem a ha with hold | hsigned
    · rcases hmem a' ha' with hold' | hsigned'
      · exact h.distinct a hold a' hold' hid hprev
      · exact hagree a' hsigned' a hold hid hprev
    · rcases hmem a' ha' with hold' | hsigned'
      · obtain ⟨hsize, hroot⟩ := hagree a hsigned a' hold' hid.symm hprev.symm
        exact ⟨hsize.symm, hroot.symm⟩
      · obtain rfl : a = a' := Option.some.inj (hsigned.symm.trans hsigned')
        exact ⟨rfl, rfl⟩
  · intro k' row hk
    change (k', row) ∈ filed (v.history ++ [e])
    rw [hfiled']
    have hlookup : s.submittedStatements.lookup k' = some row := hk
    rw [hcache, lookup_insertNew] at hlookup
    split at hlookup
    · rename_i hkey
      subst hkey
      cases hold : v.shared.submittedStatements.lookup k' with
      | none =>
        rw [hold] at hlookup
        obtain rfl := Option.some.inj hlookup
        exact List.mem_append_right _ (List.mem_singleton_self _)
      | some old =>
        rw [hold] at hlookup
        obtain rfl := Option.some.inj hlookup
        exact List.mem_append_left _ (h.cached k' old hold)
    · exact List.mem_append_left _ (h.cached k' row hlookup)
  · intro k' row hfound
    change (k', row) ∈ filed (v.history ++ [e])
    rw [hfiled']
    rcases List.mem_append.1 hfound with hold | hlast
    · exact List.mem_append_left _ (h.found k' row hold)
    · rw [he] at hlast
      cases List.mem_singleton.1 hlast

/-- A call that ends has written the tip that it signed over. -/
theorem Unforked.clear (h : Unforked E v) (hsettled : Settled (v.trails i)) : Unforked E (v.clear i) := by
  refine ⟨h.sound.clear E i, h.forward, ?_, h.distinct, h.cached, h.found⟩
  intro a ha
  rcases h.passed a ha with hbehind | ⟨j, howes⟩
  · exact .inl hbehind
  · refine .inr ⟨j, ?_⟩
    rw [View.trails_clear, if_neg]
    · exact howes
    · rintro rfl
      obtain ⟨row, hrow, hcontinuity⟩ := mem_assertions.1 howes.1
      obtain ⟨witness, hmoved⟩ := hsettled.committed row hrow a hcontinuity
      rw [howes.2] at hmoved
      cases hmoved

end Step

theorem unforked_protects (hbounded : DecodersBounded E) : Protects (SqlStore.exec E) (serviceContract E cfg)
    (Answers E cfg) (fun _ => True) TipCompared (fun v : View ι Call.Ans SqlStore => Unforked E v) where
  call := by
    intro v i r c h htrail hstarts hmay hcompared
    have hprotects : Protects (SqlStore.exec E) (serviceContract E cfg) (Answers E cfg) (fun _ => True) TipCompared
        (fun v : View ι Call.Ans SqlStore => Sound E v) := instances_protect E cfg
    obtain ⟨hcounts, hsound⟩ := hprotects.call v i r c h.sound htrail hstarts hmay hcompared
    refine ⟨hcounts, ?_⟩
    have hunmoved : (SqlStore.exec E c v.shared).2.checkpointWitnesses = v.shared.checkpointWitnesses →
        (SqlStore.exec E c v.shared).2.submittedStatements = v.shared.submittedStatements →
        filed [⟨c, (SqlStore.exec E c v.shared).1⟩] = [] → tipsMoved [⟨c, (SqlStore.exec E c v.shared).1⟩] = [] →
        (∀ k, c ≠ .getStatement k) →
        Unforked E (v.extend i ⟨c, (SqlStore.exec E c v.shared).1⟩ (SqlStore.exec E c v.shared).2) := by
      intro htips hcache hfiled hmoved hc
      refine h.extend_unmoved hsound hfiled hmoved htips ?_ ?_
      · intro k row hk
        rw [← hcache]
        exact hk
      · intro k row heq
        exact absurd (Sigma.mk.inj heq).1 (hc k)
    cases c with
    | appendEntry entry =>
      rcases exec_appendEntry E entry v.shared with ⟨hexec, -⟩ | ⟨hexec, -⟩
      · rw [hexec] at hsound hunmoved ⊢
        refine hunmoved rfl rfl rfl rfl ?_
        intro k heq
        cases heq
      · rw [hexec] at hsound hunmoved ⊢
        refine hunmoved rfl rfl rfl rfl ?_
        intro k heq
        cases heq
    | putStatement k receipt leafIndex treeSize =>
      exact h.extend_put hsound rfl rfl hmay.1 hmay.2.2.2.1 hmay.2.2.2.2 hcompared
    | getStatement k =>
      refine h.extend_unmoved hsound rfl rfl rfl (fun _ _ hk => hk) ?_
      intro k' row heq
      obtain ⟨hcall, hrow⟩ := Sigma.mk.inj heq
      obtain rfl := Call.getStatement.inj hcall
      exact eq_of_heq hrow
    | pruneStatementsOlderThan cutoff =>
      refine h.extend_unmoved hsound rfl rfl rfl ?_ ?_
      · intro k row hk
        simp only [SqlStore.exec, SqlStore.pruneStatementsOlderThan, foldl_erase_rows] at hk
        exact lookup_foldl_erase _ _ k row hk
      · intro k row heq
        cases (Sigma.mk.inj heq).1
    | putCheckpointWitness logId witness =>
      have hadvances := (hmay hbounded).2
      exact h.extend_moved hsound rfl rfl hadvances (tipsLE_of_compared hadvances hcompared)
    | putCheckpointRecord logId mmrSize record =>
      obtain ⟨records, events, hrecord⟩ := putCheckpointRecord_eq v.shared logId mmrSize record
      refine hunmoved ?_ ?_ rfl rfl ?_
      · simp only [SqlStore.exec, hrecord]
      · simp only [SqlStore.exec, hrecord]
      · intro k heq
        cases heq
    | _ =>
      refine hunmoved rfl rfl rfl rfl ?_
      intro k heq
      cases heq
  finish := by
    intro v i r result h hstarts hended
    refine h.clear ?_
    cases result with
    | ok reply => exact hended.1
    | error e => exact hended

/-! ### Schedules -/

omit [DecidableEq ι] in
/-- What a registration returned was cached by the call that signed it. -/
private theorem assertions_of_onReceipt {w : ServiceWorld ι}
    (hgood : Good (serviceContract E cfg) (Answers E cfg) (fun _ => True) (Unforked E) w) {a : ContinuityAssertion}
    (h : OnReceipt w a) : a ∈ assertions w.view.history := by
  rcases h with hcached | ⟨o, ho, result, hresult, ha⟩
  · exact hcached
  · obtain ⟨-, htrail, -, hended⟩ := hgood.ended o ho
    rw [hresult] at hended
    obtain ⟨sub, -, ⟨k, -, -, hrow⟩ | ⟨-, hfiled⟩⟩ := hended.2.1
    · exact mem_assertions.2 ⟨_, hgood.shared.found k _ (htrail hrow), ha⟩
    · have hmem : (sub.entryHash, result.receipt, result.leafIndex, result.treeSize) ∈ filed o.trail := by
        rw [hfiled]
        exact List.mem_singleton_self _
      obtain ⟨e, he, hsome⟩ := List.mem_filterMap.1 hmem
      exact mem_assertions.2 ⟨_, List.mem_filterMap.2 ⟨e, htrail he, hsome⟩, ha⟩

/-- A step that obeys leaves every tip, or replaces it by a larger one. -/
private theorem tipsLE_act (hbounded : DecodersBounded E) {w : ServiceWorld ι}
    (hgood : Good (serviceContract E cfg) (Answers E cfg) (fun _ => True) (Unforked E) w) {a : Action ι TimedRequest}
    (hobeys : Obeys (fun _ => True) TipCompared w a) :
    TipsLE w.view.shared.checkpointWitnesses
      (act (fun r => r.2.program E cfg r.1) (SqlStore.exec E) w a).view.shared.checkpointWitnesses := by
  cases a with
  | start i r =>
    simp only [act]
    split <;> exact .refl _
  | advance i =>
    simp only [act]
    cases hrun : w.running i with
    | none => exact .refl _
    | some p =>
      simp only
      cases hrest : p.rest with
      | pure a => exact .refl _
      | throw e => exact .refl _
      | call c k =>
        have hcompared := hobeys p c k hrun hrest
        obtain ⟨-, -, hkeeps⟩ := hgood.running i p hrun
        rw [hrest] at hkeeps
        have hmay : May E cfg p.request (w.view.trails i) c := hkeeps.1
        change TipsLE _ (SqlStore.exec E c w.view.shared).2.checkpointWitnesses
        by_cases hmoved : tipsMoved [⟨c, (SqlStore.exec E c w.view.shared).1⟩] = []
        · rw [tips_exec c w.view.shared hmoved]
          exact .refl _
        · cases c with
          | putCheckpointWitness logId witness => exact tipsLE_of_compared (hmay hbounded).2 hcompared
          | _ => exact absurd rfl hmoved

/-- No other instance is at work. -/
def InTurns (i : ι) (_ : Call) (v : View ι Call.Ans SqlStore) : Prop := ∀ j, j ≠ i → v.trails j = []

/-- The tip that a call has read, and not moved, is the stored one. -/
structure Current (E : Env) (v : View ι Call.Ans SqlStore) : Prop where
  sound : Sound E v
  unmoved : ∀ i, tipsMoved (v.trails i) = [] → ∀ logId, TipUnmoved (v.trails i) v.shared logId

theorem current_protects : Protects (SqlStore.exec E) (serviceContract E cfg) (Answers E cfg) (fun _ => True) InTurns
    (fun v : View ι Call.Ans SqlStore => Current E v) where
  call := by
    intro v i r c h htrail hstarts hmay halone
    have hprotects : Protects (SqlStore.exec E) (serviceContract E cfg) (Answers E cfg) (fun _ => True) InTurns
        (fun v : View ι Call.Ans SqlStore => Sound E v) := instances_protect E cfg
    obtain ⟨hcounts, hsound⟩ := hprotects.call v i r c h.sound htrail hstarts hmay halone
    refine ⟨hcounts, hsound, ?_⟩
    intro j hmoved logId tip hread
    rw [View.trails_extend] at hmoved hread
    split at hmoved
    · rename_i hj
      rw [if_pos hj, tipsRead_append] at hread
      rw [tipsMoved_append, List.append_eq_nil_iff] at hmoved
      have htips := tips_exec c v.shared hmoved.2
      change (SqlStore.exec E c v.shared).2.checkpointWitnesses.lookup logId = tip
      rw [htips]
      rcases List.mem_append.1 hread with hold | hnew
      · exact h.unmoved i hmoved.1 logId tip hold
      · cases c with
        | getCheckpointWitness logId' =>
          obtain ⟨rfl, rfl⟩ := Prod.mk.inj (List.mem_singleton.1 hnew)
          rfl
        | _ => cases hnew
    · rename_i hj
      rw [if_neg hj, halone j hj] at hread
      cases hread
  finish := by
    intro v i r result h _ _
    refine ⟨h.sound.clear E i, ?_⟩
    intro j
    rw [View.trails_clear]
    split
    · intro _ logId tip hread
      cases hread
    · exact h.unmoved j

/-- Requests that do not overlap compare the tip, so the lock of one instance is enough for that instance. -/
theorem compared_in_turns (hbounded : DecodersBounded E) {as : List (Action ι TimedRequest)}
    (h : Permitted (fun r => r.2.program E cfg r.1) (SqlStore.exec E) (fun _ => True) InTurns
      (World.idle {} : ServiceWorld ι) as) :
    Permitted (fun r => r.2.program E cfg r.1) (SqlStore.exec E) (fun _ => True) TipCompared
      (World.idle {} : ServiceWorld ι) as := by
  intro e he
  have halone := h e he
  obtain ⟨pre, post, hsplit, hbefore, -⟩ := Run.trace_split _ he
  rw [hsplit] at h
  have hempty : Current E (⟨{}, fun _ => [], []⟩ : View ι Call.Ans SqlStore) := by
    refine ⟨sound_empty E, ?_⟩
    intro i _ logId tip hread
    cases hread
  have hgood : Good (serviceContract E cfg) (Answers E cfg) (fun _ => True) (Current E) e.before := by
    rw [hbefore]
    exact invariant current_protects (fun r _ => program_keeps E cfg r) (good_idle hempty) h.split.1
  cases hrequest : e.request with
  | start i r => trivial
  | advance i =>
    rw [hrequest] at halone
    intro p c k hrunning hrest
    have hothers := halone p c k hrunning hrest
    obtain ⟨-, -, hkeeps⟩ := hgood.running i p hrunning
    rw [hrest] at hkeeps
    have hmay : May E cfg p.request (e.before.view.trails i) c := hkeeps.1
    cases c with
    | putStatement k receipt leafIndex treeSize =>
      intro a _
      refine ⟨hgood.shared.unmoved i hmay.2.2.2.2 a.logId, ?_⟩
      intro j hj a' howes
      rw [hothers j hj] at howes
      cases howes.1
    | putCheckpointWitness logId witness => exact .inl (hgood.shared.unmoved i (hmay hbounded).1 logId)
    | _ => trivial

/-! ### Two instances with one tip -/

section Race

variable {s : SqlStore}

/-- The entry hash of a checkpoint. -/
private def entryKey (E : Env) (cp : Checkpoint) : Digest := E.sha256 (checkpointDigest E cp).bytes

/-- What is left of a submission after its checkpoint has passed the gate with `g`. -/
private def passedGate (E : Env) (now : Nat → Datetime) (cp : Checkpoint) (g : ContinuityGrade) : ServiceM Reply :=
  let sub := rawSubmission E (checkpointDigest E cp).bytes
  let registration : ServiceM StatementRegistration := do
    let issued ← appendStatement E now sub cp.grade (continuityAssertion E (now 0) (some cp) (some g))
    commitRegistration E now sub (acceptedCheckpoint (some cp) (some g))
    return { receipt := issued.1, entryHash := sub.entryHash, leafIndex := issued.2.1, treeSize := issued.2.2
             entryHashScheme := sub.scheme, checkpointWitness := none, subject := sub.subject, continuityGrade := some g }
  Reply.registered <$> do
    let result ← registration
    let _ ← store (.putCheckpointRecord cp.logId cp.mmrSize (checkpointRecord cp result))
    return result

variable (now : Nat → Datetime) (cp : Checkpoint)

variable (cfg) in
/-- A submission looks the checkpoint up, reads the tip, and goes on from there. -/
private theorem witness_calls (hdecode : decodeCoseSign1 E (checkpointDigest E cp).bytes = none) :
    ∃ f g, (Request.witnessCheckpoint cp).program E cfg now = .call (.getStatement (entryKey E cp)) f ∧
      f none = .call (.getCheckpointWitness cp.logId) g ∧ g none = passedGate E now cp .firstSeen ∧
      ∀ prev proof, cp.consistencyProof = some (some proof) → cp.prevSize = prev.mmrSize →
        cp.prevRoot = some prev.mmrRoot → E.verifyConsistency prev.mmrRoot prev.mmrSize cp.root cp.mmrSize proof = true →
        g (some prev) = passedGate E now cp .witnessed := by
  have hprep := prepare_raw E cfg.payloadPolicy hdecode (length_digest_le E cp)
  have hlookup : lookupStatement (rawSubmission E (checkpointDigest E cp).bytes) =
      .call (Call.getStatement (entryKey E cp)) fun row => .pure (row, .legacy) := by
    simp only [lookupStatement, rawSubmission, ne_eq, not_true_eq_false, if_false]
    refine congrArg (Prog.call (Call.getStatement (entryKey E cp))) ?_
    funext row
    cases row <;> rfl
  have hprogram : ∃ f, (Request.witnessCheckpoint cp).program E cfg now = .call (.getStatement (entryKey E cp)) f ∧
      f none = Reply.registered <$> do
        let result ← registerNew E cfg now (rawSubmission E (checkpointDigest E cp).bytes) cp.grade (some cp)
        let _ ← store (.putCheckpointRecord cp.logId cp.mmrSize (checkpointRecord cp result))
        return result := by
    rw [Request.program, witnessCheckpoint, registerSignedStatementFull, hprep, Prog.ofExcept, Prog.pure_bind',
      registerPrepared, hlookup]
    exact ⟨_, rfl, rfl⟩
  obtain ⟨f, hcall, hmissed⟩ := hprogram
  refine ⟨f, _, hcall, hmissed, rfl, ?_⟩
  intro prev proof hproof hsize hroot hverify
  have hmatch : ¬ (cp.prevSize ≠ prev.mmrSize ∨ cp.prevRoot ≠ some prev.mmrRoot) := by simp [hsize, hroot]
  have hjoin : cp.consistencyProof.join = some proof := by rw [hproof]; rfl
  simp only [Prog.bind]
  rw [hjoin]
  simp only [if_neg hmatch, hverify, not_true_eq_false, if_false]
  rfl

/-- Where no call is refused, a program that returns does so when it runs alone. -/
private theorem run_of_never {α : Type} {p : ServiceM α} {x : α} {s' : SqlStore}
    (h : p.runRaising (fun _ _ => False) (SqlStore.exec E) s = (.ok x, s')) : p.run (SqlStore.exec E) s = (.ok x, s') := by
  rw [Prog.runRaising_never (fun _ _ hraises => hraises)] at h
  obtain ⟨hreply, hstate⟩ := Prod.mk.inj h
  cases hrun : (p.run (SqlStore.exec E) s).1 with
  | error e =>
    rw [hrun] at hreply
    cases hreply
  | ok y =>
    rw [hrun] at hreply
    obtain rfl := Except.ok.inj hreply
    exact Prod.ext hrun hstate

variable (E) in
/-- The rest of the submission signs its assertion, caches the receipt and writes the tip. -/
private theorem passedGate_run (hs : Indexed s.logEntries) (g : ContinuityGrade) (hg : g ≠ .registered) :
    ∃ result s', (passedGate E now cp g).run (SqlStore.exec E) s = (.ok (.registered result), s') ∧
      result.receipt.continuity = continuityAssertion E (now 0) (some cp) (some g) ∧ Indexed s'.logEntries ∧
      s'.checkpointWitnesses = s.checkpointWitnesses.insert cp.logId cp.witness ∧
      ∃ row, s'.submittedStatements = insertNew s.submittedStatements (entryKey E cp) row := by
  let sub := rawSubmission E (checkpointDigest E cp).bytes
  let continuity := continuityAssertion E (now 0) (some cp) (some g)
  let row := issued E now sub cp.grade continuity s.logEntries
  let s₁ : SqlStore := { s with logEntries := registeredLog E now sub s.logEntries
                                submittedStatements := insertNew s.submittedStatements (entryKey E cp) row }
  have hnever := overTables_never E
  have hlog : Indexed s₁.logEntries := hs.registeredLog E now sub
  have hissue : (appendStatement E now sub cp.grade continuity).run (SqlStore.exec E) s = (.ok row, s₁) := by
    refine run_of_never ?_
    have happend := (hnever.run_appendLog hs logKindScitt sub.preimage (now 0) (now 1)).trans (if_neg id)
    rw [appendStatement_eq, Prog.runRaising_bind_ok happend]
    exact (hnever.run_issueReceipt now sub cp.grade continuity hs rfl).trans (if_neg id)
  have haccepted : acceptedCheckpoint (some cp) (some g) = some cp := by
    cases g with
    | registered => exact absurd rfl hg
    | _ => rfl
  let sth := headOver E s₁.logEntries (now 3) (now 4)
  let s₂ := s₁.putSth ⟨sth, sth.treeSize, E.tsEpochUs sth.timestamp⟩
  let s₃ : SqlStore := { s₂ with checkpointWitnesses := s₂.checkpointWitnesses.insert cp.logId cp.witness }
  have hsth : (signAndPersistSth E (now 3) (now 4)).run (SqlStore.exec E) s₁ = (.ok sth, s₂) :=
    run_of_never ((hnever.run_signAndPersistSth hlog (now 3) (now 4)).trans (if_neg id))
  have hcommit : (commitRegistration E now sub (acceptedCheckpoint (some cp) (some g))).run (SqlStore.exec E) s₁ =
      (.ok (), s₃) := by
    rw [haccepted, commitRegistration]
    change ((signAndPersistSth E (now 3) (now 4) >>= _) : ServiceM Unit).run (SqlStore.exec E) s₁ = _
    rw [Prog.run_bind_ok _ hsth]
    rfl
  let result : StatementRegistration :=
    { receipt := row.1, entryHash := sub.entryHash, leafIndex := row.2.1, treeSize := row.2.2
      entryHashScheme := sub.scheme, checkpointWitness := none, subject := sub.subject, continuityGrade := some g }
  obtain ⟨records, events, hrecord⟩ := putCheckpointRecord_eq s₃ cp.logId cp.mmrSize (checkpointRecord cp result)
  refine ⟨result, { s₃ with checkpointRecords := records, checkpointEquivocations := events }, ?_, rfl, hlog, rfl, row, rfl⟩
  rw [passedGate, Prog.run_map]
  rw [Prog.run_bind_ok _
    ((Prog.run_bind_ok _ hissue).trans ((Prog.run_bind_ok _ hcommit).trans (Prog.run_pure _ result s₃)))]
  rw [← hrecord]
  rfl

variable {now cp}

/-- A submission that is not cached runs on from the tip that it reads. -/
private theorem run_uncached {p : ServiceM Reply} {f : Call.Ans (.getStatement (entryKey E cp)) → ServiceM Reply}
    {g : Call.Ans (.getCheckpointWitness cp.logId) → ServiceM Reply} (hp : p = .call (.getStatement (entryKey E cp)) f)
    (hf : f none = .call (.getCheckpointWitness cp.logId) g)
    (hmiss : s.submittedStatements.lookup (entryKey E cp) = none) :
    p.run (SqlStore.exec E) s = (g (s.checkpointWitnesses.lookup cp.logId)).run (SqlStore.exec E) s := by
  rw [hp]
  change (f (s.submittedStatements.lookup (entryKey E cp))).run (SqlStore.exec E) s = _
  rw [hmiss, hf]
  rfl

variable (E cfg) in
/-- The world that a schedule leads to from `w`. -/
private abbrev onwards (w : ServiceWorld Bool) (as : List (Action Bool TimedRequest)) : ServiceWorld Bool :=
  after (fun r => r.2.program E cfg r.1) (SqlStore.exec E) w as

private theorem onwards_append (w : ServiceWorld Bool) (as bs : List (Action Bool TimedRequest)) :
    onwards E cfg w (as ++ bs) = onwards E cfg (onwards E cfg w as) bs := Run.after_append _ _ _ _

variable (E cfg) in
/-- An instance that returns when it is left alone. -/
private theorem returns_alone {w : ServiceWorld Bool} {i : Bool} {p : Running Call.Ans ServiceError Reply TimedRequest SqlStore}
    (hp : w.running i = some p) {reply : Reply} {s' : SqlStore}
    (hrun : p.rest.run (SqlStore.exec E) w.view.shared = (.ok reply, s')) :
    ∃ n, let w' := onwards E cfg w (List.replicate n (.advance i))
      w'.view.shared = s' ∧ w'.running i = none ∧ (∀ j, j ≠ i → w'.running j = w.running j) ∧
        (∃ o ∈ w'.outcomes, o.result = .ok reply) ∧ w.outcomes ⊆ w'.outcomes := by
  obtain ⟨n, t, hn⟩ := advance_alone (fun r : TimedRequest => r.2.program E cfg r.1) (SqlStore.exec E) hp
  refine ⟨n, ?_⟩
  simp only [onwards, hn, hrun]
  refine ⟨trivial, Function.update_self _ _ _, fun j hj => Function.update_of_ne hj _ _, ?_, List.subset_append_left _ _⟩
  exact ⟨_, List.mem_append_right _ (List.mem_singleton_self _), rfl⟩

/-- Both instances are given a request, and the second one reads the tip. -/
private theorem reads_tip {w : ServiceWorld Bool} (hfirst : w.running false = none) (hsecond : w.running true = none)
    (r : TimedRequest) {f : Call.Ans (.getStatement (entryKey E cp)) → ServiceM Reply}
    {g : Call.Ans (.getCheckpointWitness cp.logId) → ServiceM Reply}
    (hp : (Request.witnessCheckpoint cp).program E cfg now = .call (.getStatement (entryKey E cp)) f)
    (hf : f none = .call (.getCheckpointWitness cp.logId) g)
    (hmiss : w.view.shared.submittedStatements.lookup (entryKey E cp) = none) :
    let w' := onwards E cfg w [.start false r, .start true (now, .witnessCheckpoint cp), .advance true, .advance true]
    w'.view.shared = w.view.shared ∧ w'.running false = some ⟨r, w.view.shared, r.2.program E cfg r.1⟩ ∧
      w'.running true = some ⟨(now, .witnessCheckpoint cp), w.view.shared,
        g (w.view.shared.checkpointWitnesses.lookup cp.logId)⟩ := by
  let program := fun r : TimedRequest => r.2.program E cfg r.1
  let exec := SqlStore.exec E
  let started : ServiceWorld Bool := { w with
    running := Function.update (Function.update w.running false (some ⟨r, w.view.shared, program r⟩)) true
      (some ⟨(now, .witnessCheckpoint cp), w.view.shared, .call (.getStatement (entryKey E cp)) f⟩) }
  have hstarted : act program exec (act program exec w (.start false r)) (.start true (now, .witnessCheckpoint cp)) =
      started := by
    have hstill : Function.update w.running false (some ⟨r, w.view.shared, program r⟩) true = none := hsecond
    simp only [act, hfirst, hstill, program, hp]
    rfl
  have hrunning : started.running true =
      some ⟨(now, .witnessCheckpoint cp), w.view.shared, .call (.getStatement (entryKey E cp)) f⟩ := rfl
  -- the lookup, and the read of the tip
  obtain ⟨hshared₁, hrunning₁, hothers₁⟩ := advance_call program exec hrunning
  have hlookup : (exec (.getStatement (entryKey E cp)) started.view.shared).1 = none := hmiss
  rw [hlookup, hf] at hrunning₁
  obtain ⟨hshared₂, hrunning₂, hothers₂⟩ := advance_call program exec hrunning₁
  rw [hshared₁] at hshared₂ hrunning₂
  have hreached : onwards E cfg w [.start false r, .start true (now, .witnessCheckpoint cp), .advance true, .advance true] =
      act program exec (act program exec started (.advance true)) (.advance true) := by
    rw [← hstarted]
    rfl
  rw [hreached]
  refine ⟨hshared₂, ?_, hrunning₂⟩
  rw [hothers₂ false (by decide), hothers₁ false (by decide)]
  rfl

end Race

/-- An instance that works while no other one does is permitted. -/
private theorem inTurns_alone {w : ServiceWorld ι} {i : ι} (halone : ∀ j, j ≠ i → w.view.trails j = []) (n : Nat) :
    Permitted (fun r => r.2.program E cfg r.1) (SqlStore.exec E) (fun _ => True) InTurns w
      (List.replicate n (.advance i)) := by
  induction n generalizing w with
  | zero =>
    intro e he
    cases he
  | succ n ih =>
    intro e he
    rcases List.mem_cons.1 he with rfl | he
    · exact fun _ _ _ _ _ => halone
    · have hnext : ∀ j, j ≠ i →
          (act (fun r => r.2.program E cfg r.1) (SqlStore.exec E) w (.advance i)).view.trails j = [] :=
        fun j hj => (trails_advance hj).trans (halone j hj)
      exact ih hnext e he

/-- A checkpoint of `refCheckpoint 4 1` with a proof. -/
def refExtension (mmrSize : Nat) (fill : UInt8) (h : 4 < mmrSize) : Checkpoint :=
  { refCheckpoint mmrSize fill (Nat.lt_of_le_of_lt (Nat.zero_le 4) h) with
    prevSize := 4
    prevRoot := some (filledDigest 1)
    consistencyProof := some (some ⟨4, mmrSize, [], [], []⟩)
    prevSize_lt := h }

/-- Proofs are accepted between the sizes that they name. -/
def refExtensionEnv : Env := refEnv [] [] fun _ sizeA _ sizeB proof => proof.sizeA == sizeA && proof.sizeB == sizeB

end CapsuleAnchor

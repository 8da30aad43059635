import CapsuleAnchor.Interleaving
import CapsuleAnchor.Publisher

/-!
# Several publishers

Any number of publishers and service instances over one store: the timer threads of several instances, or the thread and
the shutdown hook of one.  `publish_if_new` looks a head up among the receipts, submits it to the external log and inserts
what the log answers, in three steps; nothing reserves the head in between.  The primary key of the receipts makes the
second insert do nothing, but by then the external log has both submissions (`submitted_twice`).  They are one if no
publisher looks a head up while another is between its lookup and its insert of it (`submitted_once`).
-/

namespace CapsuleAnchor

open Interleaving

variable (E : Env) (cfg : Config)

/-- What a publication is filed under. -/
abbrev PublicationKey : Type := String × Nat × Digest

def SignedTreeHead.publication (sth : SignedTreeHead) (backend : String) : PublicationKey :=
  (backend, sth.treeSize, sth.rootHash)

/-- A method of the store, a lookup or an insert of a receipt, or a submission to the external log. -/
inductive RailCall
  | store (c : Call)
  | lookup (key : PublicationKey)
  | submit (backend : String) (sth : SignedTreeHead)
  | insert (receipt : PublicLogReceipt)

def RailCall.Ans : RailCall → Type
  | store c => c.Ans
  | lookup _ => Option PublicLogReceipt
  | submit _ _ => PublicLogResponse
  | insert _ => Unit

abbrev RailM (α : Type) : Type := Prog RailCall RailCall.Ans ServiceError α

/-- A program of the service. -/
def raising {α : Type} : ServiceM α → RailM α
  | .pure a => .pure a
  | .throw e => .throw e
  | .call c k => .call (.store c) fun x => raising (k x)

/-- A program of the service inside a `try`. -/
def attempt {α : Type} : ServiceM α → RailM (Option α)
  | .pure a => .pure (some a)
  | .throw _ => .pure none
  | .call c k => .call (.store c) fun x => attempt (k x)

/-- The end of `publish_if_new`, where nothing fails. -/
def submitHead (backend submittedAt : String) (sth : SignedTreeHead) : RailM OperationReply :=
  .call (.submit backend sth) fun response =>
    .call (.insert (PublicLogResponse.receipt response backend sth submittedAt)) fun _ => pure (.published true)

/-- `publish_if_new`, once it has a head. -/
def publishHead (backend submittedAt : String) (sth : SignedTreeHead) : RailM OperationReply :=
  .call (.lookup (sth.publication backend)) fun stored =>
    if Option.isSome stored then pure (.published false) else submitHead backend submittedAt sth

/-- `publish_if_new`; an exception before the lookup ends it, and an empty log has nothing to publish. -/
def publishIfNew (now : Nat → Datetime) (backend submittedAt : String) : RailM OperationReply := do
  let head ← attempt (headToPublish E now)
  match head.join with
  | some sth => publishHead backend submittedAt sth
  | none => return .published false

inductive RailRequest
  | service (r : TimedRequest)
  | publish (now : Nat → Datetime) (backend submittedAt : String)

def RailRequest.program : RailRequest → RailM OperationReply
  | .service r => OperationReply.replied <$> raising (r.2.program E cfg r.1)
  | .publish now backend submittedAt => publishIfNew E now backend submittedAt

/-- The shared store with its receipts, and what the external logs were handed. -/
structure Rail (b : Backend) where
  store : b.Store
  receipts : PublicLogReceipts := ∅
  submissions : List (String × SignedTreeHead) := []

/-- The heads that the external logs were handed. -/
def Rail.publications {b : Backend} (s : Rail b) : List PublicationKey := s.submissions.map fun x => x.2.publication x.1

/-- `respond` is what an external log answers, in view of all the submissions so far. -/
def Rail.exec (b : Backend) (respond : List (String × SignedTreeHead) → PublicLogResponse) :
    (c : RailCall) → Rail b → c.Ans × Rail b
  | .store c, s => ((b.exec E c s.store).1, { s with store := (b.exec E c s.store).2 })
  | .lookup key, s => (s.receipts.lookup key, s)
  | .submit backend sth, s =>
    (respond (s.submissions ++ [(backend, sth)]), { s with submissions := s.submissions ++ [(backend, sth)] })
  | .insert receipt, s => ((), { s with receipts := b.putPublicLogReceipt receipt s.receipts })

/-! ### What a publisher has done so far -/

abbrev RailTrail : Type := Trail RailCall.Ans

/-- The heads that were looked up and not found. -/
def missed (t : RailTrail) : List PublicationKey :=
  t.filterMap fun
    | ⟨.lookup key, none⟩ => some key
    | _ => none

/-- The heads that were submitted. -/
def handed (t : RailTrail) : List PublicationKey :=
  t.filterMap fun
    | ⟨.submit backend sth, _⟩ => some (sth.publication backend)
    | _ => none

/-- The heads whose receipts were inserted. -/
def inserted (t : RailTrail) : List PublicationKey :=
  t.filterMap fun
    | ⟨.insert receipt, _⟩ => some (receipt.backend, receipt.sthTreeSize, receipt.sthRootHash)
    | _ => none

section Projections

variable (t u : RailTrail)

@[simp] theorem missed_append : missed (t ++ u) = missed t ++ missed u := List.filterMap_append

@[simp] theorem handed_append : handed (t ++ u) = handed t ++ handed u := List.filterMap_append

@[simp] theorem inserted_append : inserted (t ++ u) = inserted t ++ inserted u := List.filterMap_append

end Projections

/-- Only store methods were called. -/
structure Looking (t : RailTrail) : Prop where
  missed : missed t = []
  handed : handed t = []
  inserted : inserted t = []

theorem looking_nil : Looking [] := ⟨rfl, rfl, rfl⟩

theorem Looking.store {t : RailTrail} (h : Looking t) (c : Call) (x : c.Ans) : Looking (t ++ [⟨.store c, x⟩]) where
  missed := by
    rw [missed_append, h.missed]
    rfl
  handed := by
    rw [handed_append, h.handed]
    rfl
  inserted := by
    rw [inserted_append, h.inserted]
    rfl

/-- Between the lookup that missed and the insert. -/
def Publishing (key : PublicationKey) (t : RailTrail) : Prop := key ∈ missed t ∧ key ∉ inserted t

/-- A publisher looks one head up, submits it if it was not found and then inserts its receipt. -/
def MayPublish (t : RailTrail) : RailCall → Prop
  | .store _ => True
  | .lookup _ => Looking t
  | .submit backend sth => missed t = [sth.publication backend] ∧ handed t = [] ∧ inserted t = []
  | .insert receipt => missed t = [(receipt.backend, receipt.sthTreeSize, receipt.sthRootHash)] ∧ handed t = missed t ∧
    inserted t = []

def railContract : Contract RailCall.Ans ServiceError RailRequest where
  may := fun _ => MayPublish
  valid := fun _ _ _ => True
  fails := fun _ _ t => Looking t

/-- What was submitted was inserted. -/
def Done (_ : RailRequest) (_ : OperationReply) (t : RailTrail) : Prop := handed t = inserted t

section Programs

variable {E cfg} {r : RailRequest} {t : RailTrail} {α : Type}

theorem attempt_keeps {p : ServiceM α} {Q : Option α → RailTrail → Prop} (ht : Looking t)
    (hQ : ∀ x u, Looking u → Q x u) : Keeps railContract r (attempt p) Q t := by
  induction p generalizing t with
  | pure a => exact hQ _ t ht
  | throw e => exact hQ _ t ht
  | call c k ih => exact ⟨trivial, fun x _ => ih x (ht.store c x)⟩

theorem raising_keeps {p : ServiceM α} {Q : α → RailTrail → Prop} (ht : Looking t) (hQ : ∀ x u, Looking u → Q x u) :
    Keeps railContract r (raising p) Q t := by
  induction p generalizing t with
  | pure a => exact hQ _ t ht
  | throw e => exact ht
  | call c k ih => exact ⟨trivial, fun x _ => ih x (ht.store c x)⟩

theorem publishHead_keeps {backend submittedAt : String} {sth : SignedTreeHead} (ht : Looking t) :
    Keeps railContract r (publishHead backend submittedAt sth) (fun _ u => handed u = inserted u) t := by
  refine ⟨ht, fun stored _ => ?_⟩
  cases stored with
  | some receipt =>
    change handed (t ++ _) = inserted (t ++ _)
    rw [handed_append, inserted_append, ht.handed, ht.inserted]
    rfl
  | none =>
    have hmissed : missed (t ++ [⟨.lookup (sth.publication backend), none⟩]) = [sth.publication backend] := by
      rw [missed_append, ht.missed]
      rfl
    have hhanded : handed (t ++ [⟨.lookup (sth.publication backend), none⟩]) = [] := by
      rw [handed_append, ht.handed]
      rfl
    have hinserted : inserted (t ++ [⟨.lookup (sth.publication backend), none⟩]) = [] := by
      rw [inserted_append, ht.inserted]
      rfl
    refine ⟨⟨hmissed, hhanded, hinserted⟩, fun response _ => ⟨⟨?_, ?_, ?_⟩, fun _ _ => ?_⟩⟩
    · rw [missed_append, hmissed]
      rfl
    · rw [handed_append, hhanded, missed_append, hmissed]
      rfl
    · rw [inserted_append, hinserted]
      rfl
    · change handed (_ ++ _) = inserted (_ ++ _)
      rw [handed_append, handed_append, hhanded, inserted_append, inserted_append, hinserted]
      rfl

variable (E cfg) in
theorem railProgram_keeps (r : RailRequest) : Keeps railContract r (r.program E cfg) (Done r) [] := by
  cases r with
  | service r =>
    refine Keeps.map (raising_keeps looking_nil ?_)
    intro _ u hu
    rw [Done, hu.handed, hu.inserted]
  | publish now backend submittedAt =>
    refine Keeps.bind (attempt_keeps looking_nil ?_)
    intro head u hu
    cases hjoin : head.join with
    | none =>
      change handed u = inserted u
      rw [hu.handed, hu.inserted]
    | some sth => exact publishHead_keeps hu

end Programs

/-! ### One submission -/

variable {ι : Type} [DecidableEq ι] {b : Backend} {respond : List (String × SignedTreeHead) → PublicLogResponse}

/-- No publisher looks a head up while another is between its lookup and its insert of it. -/
def Alone (i : ι) (c : RailCall) (v : View ι RailCall.Ans (Rail b)) : Prop :=
  ∀ key, c = .lookup key → ∀ j, j ≠ i → ¬ Publishing key (v.trails j)

/-- Every submitted head has its receipt or a publisher that is about to insert it; each is in the hands of one. -/
structure Submitted (v : View ι RailCall.Ans (Rail b)) : Prop where
  nodup : v.shared.publications.Nodup
  known : ∀ i, handed (v.trails i) ⊆ missed (v.trails i)
  filed : ∀ key ∈ v.shared.publications, v.shared.receipts.lookup key = none →
    ∃ i, key ∈ handed (v.trails i) ∧ key ∉ inserted (v.trails i)
  free : ∀ i key, Publishing key (v.trails i) → v.shared.receipts.lookup key = none
  alone : ∀ i j key, Publishing key (v.trails i) → Publishing key (v.trails j) → i = j

omit [DecidableEq ι] in
theorem submitted_idle {s : Rail b} (h : s.submissions = []) :
    Submitted (⟨s, fun _ => [], []⟩ : View ι RailCall.Ans (Rail b)) where
  nodup := by simp [Rail.publications, h]
  known := fun _ => List.nil_subset _
  filed := by simp [Rail.publications, h]
  free := by simp [Publishing, missed]
  alone := by simp [Publishing, missed]

omit [DecidableEq ι] in
/-- Nothing that matters to the submissions has changed. -/
theorem Submitted.of_same {v v' : View ι RailCall.Ans (Rail b)} (h : Submitted v)
    (hpublications : v'.shared.publications = v.shared.publications) (hreceipts : v'.shared.receipts = v.shared.receipts)
    (hmissed : ∀ j, missed (v'.trails j) = missed (v.trails j)) (hhanded : ∀ j, handed (v'.trails j) = handed (v.trails j))
    (hinserted : ∀ j, inserted (v'.trails j) = inserted (v.trails j)) : Submitted v' := by
  obtain ⟨hnodup, hknown, hfiled, hfree, halone⟩ := h
  constructor
  · rwa [hpublications]
  · simpa only [hhanded, hmissed] using hknown
  · simpa only [hpublications, hreceipts, hhanded, hinserted] using hfiled
  · simpa only [Publishing, hmissed, hinserted, hreceipts] using hfree
  · simpa only [Publishing, hmissed, hinserted] using halone

section Extend

variable {v : View ι RailCall.Ans (Rail b)} {i : ι} {s : Rail b} {e : Σ c, RailCall.Ans c}

private theorem missed_extend (j : ι) : missed ((v.extend i e s).trails j) =
    if j = i then missed (v.trails i) ++ missed [e] else missed (v.trails j) := by
  rw [View.trails_extend]
  split
  · rw [missed_append]
  · rfl

private theorem handed_extend (j : ι) : handed ((v.extend i e s).trails j) =
    if j = i then handed (v.trails i) ++ handed [e] else handed (v.trails j) := by
  rw [View.trails_extend]
  split
  · rw [handed_append]
  · rfl

private theorem inserted_extend (j : ι) : inserted ((v.extend i e s).trails j) =
    if j = i then inserted (v.trails i) ++ inserted [e] else inserted (v.trails j) := by
  rw [View.trails_extend]
  split
  · rw [inserted_append]
  · rfl

/-- A call that neither misses, submits nor inserts changes nothing. -/
theorem Submitted.quiet (h : Submitted v) (hmissed : missed [e] = []) (hhanded : handed [e] = [])
    (hinserted : inserted [e] = []) (hpublications : s.publications = v.shared.publications)
    (hreceipts : s.receipts = v.shared.receipts) : Submitted (v.extend i e s) := by
  refine h.of_same hpublications hreceipts ?_ ?_ ?_
  · intro j
    rw [missed_extend, hmissed, List.append_nil]
    split
    · rename_i hij
      rw [hij]
    · rfl
  · intro j
    rw [handed_extend, hhanded, List.append_nil]
    split
    · rename_i hij
      rw [hij]
    · rfl
  · intro j
    rw [inserted_extend, hinserted, List.append_nil]
    split
    · rename_i hij
      rw [hij]
    · rfl

/-- A head that is looked up and not found is in the hands of its publisher, and of no other. -/
theorem Submitted.miss (h : Submitted v) (hlooking : Looking (v.trails i)) {key : PublicationKey}
    (hmiss : v.shared.receipts.lookup key = none) (hothers : ∀ j, j ≠ i → ¬ Publishing key (v.trails j)) :
    Submitted (v.extend i ⟨.lookup key, none⟩ v.shared) := by
  have hnone : ∀ j, ¬ Publishing key (v.trails j) := by
    intro j hj
    by_cases hij : j = i
    · rw [hij, Publishing, hlooking.missed] at hj
      cases hj.1
    · exact hothers j hij hj
  have hcases : ∀ j key', Publishing key' ((v.extend i ⟨.lookup key, none⟩ v.shared).trails j) →
      j = i ∧ key' = key ∨ j ≠ i ∧ Publishing key' (v.trails j) := by
    rintro j key' ⟨hin, hout⟩
    rw [missed_extend] at hin
    rw [inserted_extend] at hout
    by_cases hij : j = i
    · left
      rw [if_pos hij, hlooking.missed] at hin
      exact ⟨hij, List.mem_singleton.1 hin⟩
    · right
      rw [if_neg hij] at hin hout
      exact ⟨hij, hin, hout⟩
  constructor
  · exact h.nodup
  · intro j
    rw [handed_extend, missed_extend]
    split
    · rw [hlooking.handed]
      exact List.nil_subset _
    · exact h.known j
  · intro key' hkey' hfree
    obtain ⟨j, hin, hout⟩ := h.filed key' hkey' hfree
    refine ⟨j, ?_, ?_⟩
    · rw [handed_extend]
      split
      · rename_i hij
        rw [hij] at hin
        exact List.mem_append_left _ hin
      · exact hin
    · rw [inserted_extend]
      split
      · rw [hlooking.inserted]
        exact List.not_mem_nil
      · exact hout
  · intro j key' hpublishing
    rcases hcases j key' hpublishing with ⟨-, rfl⟩ | ⟨-, hold⟩
    · exact hmiss
    · exact h.free j key' hold
  · intro j k key' hj hk
    rcases hcases j key' hj with ⟨rfl, rfl⟩ | ⟨-, hold⟩
    · rcases hcases k key' hk with ⟨rfl, -⟩ | ⟨-, hold'⟩
      · rfl
      · exact (hnone k hold').elim
    · rcases hcases k key' hk with ⟨-, rfl⟩ | ⟨-, hold'⟩
      · exact (hnone j hold).elim
      · exact h.alone j k key' hold hold'

/-- A publisher that has missed a head and submitted nothing submits a head that nobody has submitted. -/
theorem Submitted.submit (h : Submitted v) {backend : String} {sth : SignedTreeHead} {response : PublicLogResponse}
    (hmissed : missed (v.trails i) = [sth.publication backend]) (hhanded : handed (v.trails i) = [])
    (hinserted : inserted (v.trails i) = []) : Submitted (v.extend i ⟨.submit backend sth, response⟩
      { v.shared with submissions := v.shared.submissions ++ [(backend, sth)] }) := by
  have hpublishing : Publishing (sth.publication backend) (v.trails i) := by
    rw [Publishing, hmissed, hinserted]
    exact ⟨List.mem_singleton_self _, List.not_mem_nil⟩
  have hpublications : (v.extend i ⟨.submit backend sth, response⟩
      { v.shared with submissions := v.shared.submissions ++ [(backend, sth)] }).shared.publications =
      v.shared.publications ++ [sth.publication backend] := List.map_append
  have hsame : ∀ j, missed ((v.extend i ⟨.submit backend sth, response⟩
      { v.shared with submissions := v.shared.submissions ++ [(backend, sth)] }).trails j) = missed (v.trails j) ∧
      inserted ((v.extend i ⟨.submit backend sth, response⟩
      { v.shared with submissions := v.shared.submissions ++ [(backend, sth)] }).trails j) = inserted (v.trails j) := by
    intro j
    rw [missed_extend, inserted_extend]
    split
    · rename_i hij
      rw [hij]
      exact ⟨List.append_nil _, List.append_nil _⟩
    · exact ⟨rfl, rfl⟩
  have hnew : sth.publication backend ∉ v.shared.publications := by
    intro hmem
    -- whoever submitted it before has not inserted its receipt yet, so it is this publisher
    obtain ⟨j, hin, hout⟩ := h.filed _ hmem (h.free i _ hpublishing)
    obtain rfl := h.alone j i _ ⟨h.known j hin, hout⟩ hpublishing
    rw [hhanded] at hin
    cases hin
  constructor
  · rw [hpublications, List.nodup_append]
    refine ⟨h.nodup, List.nodup_singleton _, ?_⟩
    rintro key hkey _ hlast rfl
    rw [List.mem_singleton.1 hlast] at hkey
    exact hnew hkey
  · intro j
    rw [handed_extend, (hsame j).1]
    split
    · rename_i hij
      rw [hij, hhanded, hmissed]
      exact List.Subset.refl _
    · exact h.known j
  · intro key hkey hfree
    rw [hpublications, List.mem_append] at hkey
    rcases hkey with hkey | hkey
    · obtain ⟨j, hin, hout⟩ := h.filed key hkey hfree
      refine ⟨j, ?_, by rwa [(hsame j).2]⟩
      rw [handed_extend]
      split
      · rename_i hij
        rw [hij] at hin
        exact List.mem_append_left _ hin
      · exact hin
    · refine ⟨i, ?_, by rw [(hsame i).2, hinserted]; exact List.not_mem_nil⟩
      rw [handed_extend, if_pos rfl]
      exact List.mem_append_right _ hkey
  · intro j key hj
    rw [Publishing, (hsame j).1, (hsame j).2] at hj
    exact h.free j key hj
  · intro j k key hj hk
    rw [Publishing, (hsame j).1, (hsame j).2] at hj
    rw [Publishing, (hsame k).1, (hsame k).2] at hk
    exact h.alone j k key hj hk

/-- The insert of a head takes it out of the hands of its publisher. -/
theorem Submitted.insert (h : Submitted v) {receipt : PublicLogReceipt} {receipts : PublicLogReceipts}
    (hmissed : missed (v.trails i) = [(receipt.backend, receipt.sthTreeSize, receipt.sthRootHash)])
    (hhanded : handed (v.trails i) = missed (v.trails i)) (hinserted : inserted (v.trails i) = [])
    (hfound : (receipts.lookup (receipt.backend, receipt.sthTreeSize, receipt.sthRootHash)).isSome = true)
    (hother : ∀ key, key ≠ (receipt.backend, receipt.sthTreeSize, receipt.sthRootHash) →
      receipts.lookup key = v.shared.receipts.lookup key) :
    Submitted (v.extend i ⟨.insert receipt, ()⟩ { v.shared with receipts }) := by
  have hpublishing : Publishing (receipt.backend, receipt.sthTreeSize, receipt.sthRootHash) (v.trails i) := by
    rw [Publishing, hmissed, hinserted]
    exact ⟨List.mem_singleton_self _, List.not_mem_nil⟩
  have hsame : ∀ j, missed ((v.extend i ⟨.insert receipt, ()⟩ { v.shared with receipts }).trails j) =
      missed (v.trails j) ∧ handed ((v.extend i ⟨.insert receipt, ()⟩ { v.shared with receipts }).trails j) =
      handed (v.trails j) := by
    intro j
    rw [missed_extend, handed_extend]
    split
    · rename_i hij
      rw [hij]
      exact ⟨List.append_nil _, List.append_nil _⟩
    · exact ⟨rfl, rfl⟩
  have hcases : ∀ j key, Publishing key ((v.extend i ⟨.insert receipt, ()⟩ { v.shared with receipts }).trails j) →
      j ≠ i ∧ Publishing key (v.trails j) := by
    rintro j key ⟨hin, hout⟩
    rw [(hsame j).1] at hin
    rw [inserted_extend] at hout
    by_cases hij : j = i
    · rw [hij, hmissed] at hin
      rw [if_pos hij] at hout
      exact (hout (List.mem_append_right _ hin)).elim
    · rw [if_neg hij] at hout
      exact ⟨hij, hin, hout⟩
  constructor
  · exact h.nodup
  · intro j
    rw [(hsame j).1, (hsame j).2]
    exact h.known j
  · intro key hkey hfree
    have hne : key ≠ (receipt.backend, receipt.sthTreeSize, receipt.sthRootHash) := by
      rintro rfl
      have hnone : receipts.lookup (receipt.backend, receipt.sthTreeSize, receipt.sthRootHash) = none := hfree
      rw [hnone] at hfound
      cases hfound
    obtain ⟨j, hin, hout⟩ := h.filed key hkey ((hother key hne).symm.trans hfree)
    have hij : j ≠ i := by
      rintro rfl
      rw [hhanded, hmissed] at hin
      exact hne (List.mem_singleton.1 hin)
    refine ⟨j, by rwa [(hsame j).2], ?_⟩
    rwa [inserted_extend, if_neg hij]
  · intro j key hj
    obtain ⟨hij, hold⟩ := hcases j key hj
    have hne : key ≠ (receipt.backend, receipt.sthTreeSize, receipt.sthRootHash) := by
      rintro rfl
      exact hij (h.alone j i _ hold hpublishing)
    exact (hother key hne).trans (h.free j key hold)
  · intro j k key hj hk
    exact h.alone j k key (hcases j key hj).2 (hcases k key hk).2

/-- A publisher that has inserted what it submitted may end. -/
theorem Submitted.clear (h : Submitted v) (hdone : handed (v.trails i) = inserted (v.trails i)) :
    Submitted (v.clear i) := by
  have hcases : ∀ j key, Publishing key ((v.clear i).trails j) → Publishing key (v.trails j) := by
    rintro j key ⟨hin, hout⟩
    rw [View.trails_clear] at hin hout
    split at hin
    · cases hin
    · rename_i hij
      rw [if_neg hij] at hout
      exact ⟨hin, hout⟩
  constructor
  · exact h.nodup
  · intro j
    rw [View.trails_clear]
    split
    · exact List.nil_subset _
    · exact h.known j
  · intro key hkey hfree
    obtain ⟨j, hin, hout⟩ := h.filed key hkey hfree
    have hij : j ≠ i := by
      rintro rfl
      rw [hdone] at hin
      exact hout hin
    exact ⟨j, by rwa [View.trails_clear, if_neg hij], by rwa [View.trails_clear, if_neg hij]⟩
  · intro j key hj
    exact h.free j key (hcases j key hj)
  · intro j k key hj hk
    exact h.alone j k key (hcases j key hj) (hcases k key hk)

end Extend

theorem rails_protect : Protects (Rail.exec E b respond) railContract Done (fun _ => True) Alone
    (Submitted : View ι RailCall.Ans (Rail b) → Prop) := by
  constructor
  · intro v i r c h _ _ hmay hallowed
    refine ⟨trivial, ?_⟩
    cases c with
    | store c => exact h.quiet rfl rfl rfl rfl rfl
    | lookup key =>
      cases hrow : v.shared.receipts.lookup key with
      | none =>
        have hmiss := h.miss hmay hrow (hallowed key rfl)
        rwa [← hrow] at hmiss
      | some receipt =>
        have hquiet : Submitted (v.extend i ⟨.lookup key, some receipt⟩ v.shared) := h.quiet rfl rfl rfl rfl rfl
        rwa [← hrow] at hquiet
    | submit backend sth =>
      obtain ⟨hmissed, hhanded, hinserted⟩ := hmay
      exact h.submit hmissed hhanded hinserted
    | insert receipt =>
      obtain ⟨hmissed, hhanded, hinserted⟩ := hmay
      refine h.insert hmissed hhanded hinserted ?_ ?_
      · rw [Backend.putPublicLogReceipt, lookup_insertNew, if_pos rfl]
        rfl
      · intro key hne
        rw [Backend.putPublicLogReceipt, lookup_insertNew, if_neg hne]
  · intro v i r result h _ hended
    refine h.clear ?_
    cases result with
    | ok reply => exact hended
    | error e =>
      have hlooking : Looking (v.trails i) := hended
      rw [hlooking.handed, hlooking.inserted]

/-- A publisher that works alone meets no one between a lookup and an insert. -/
private theorem permitted_alone_rail {w : World ι RailCall.Ans ServiceError OperationReply RailRequest (Rail b)} {i : ι}
    (halone : ∀ j, j ≠ i → w.view.trails j = []) (n : Nat) :
    Permitted (RailRequest.program E cfg) (Rail.exec E b respond) (fun _ => True) Alone w
      (List.replicate n (.advance i)) := by
  induction n generalizing w with
  | zero =>
    intro e he
    cases he
  | succ n ih =>
    intro e he
    rcases List.mem_cons.1 he with rfl | he
    · intro p c k _ _ key _ j hj hpublishing
      rw [halone j hj] at hpublishing
      cases hpublishing.1
    · have hnext : ∀ j, j ≠ i →
          (act (RailRequest.program E cfg) (Rail.exec E b respond) w (.advance i)).view.trails j = [] :=
        fun j hj => (trails_advance hj).trans (halone j hj)
      exact ih hnext e he

private theorem permitted_turn (s : Rail b) (r r' : RailRequest) (n : Nat) :
    Permitted (RailRequest.program E cfg) (Rail.exec E b respond) (fun _ => True) Alone (World.idle s)
      (.start false r :: .start true r' :: List.replicate n (.advance false)) := by
  intro e he
  rcases List.mem_cons.1 he with rfl | he
  · trivial
  · rcases List.mem_cons.1 he with rfl | he
    · trivial
    · exact permitted_alone_rail E cfg (fun _ _ => rfl) n e he

theorem run_attempt {α : Type} (p : ServiceM α) (s : Rail b) : (attempt p).run (Rail.exec E b respond) s =
    (.ok (p.run (b.exec E) s.store).1.toOption, { s with store := (p.run (b.exec E) s.store).2 }) := by
  induction p generalizing s with
  | pure a => rfl
  | throw e => rfl
  | call c k ih => exact ih _ _

theorem run_publishHead (backend submittedAt : String) (sth : SignedTreeHead) (s : Rail b) :
    (publishHead backend submittedAt sth).run (Rail.exec E b respond) s =
      if (s.receipts.lookup (sth.publication backend)).isSome then (.ok (.published false), s)
      else (.ok (.published true),
        { s with
          submissions := s.submissions ++ [(backend, sth)]
          receipts := b.putPublicLogReceipt
            ((respond (s.submissions ++ [(backend, sth)])).receipt backend sth submittedAt) s.receipts }) := by
  change Prog.run _ (if (s.receipts.lookup (sth.publication backend)).isSome then _ else _) s = _
  split <;> rfl

/-- One publisher alone does what the service with its rail does in one operation. -/
theorem run_publishIfNew (respond : List (String × SignedTreeHead) → PublicLogResponse) (response : PublicLogResponse)
    (hrespond : ∀ submissions, respond submissions = response) (now : Nat → Datetime) (backend submittedAt : String)
    (s : Rail .memory) :
    let result := (publishIfNew E now backend submittedAt).run (Rail.exec E .memory respond) s
    let node := Backend.memory.operate E cfg (s.store, s.receipts) (now, .publish backend (some response) submittedAt)
    result.1.toOption = node.1.toOption ∧ (result.2.store, result.2.receipts) = node.2 := by
  have hhead : (headToPublish E now).runRaising (Backend.memory.Raises E) (Backend.memory.exec E) s.store = _ :=
    Backend.runRaising_memory E (headToPublish E now) s.store
  simp only [publishIfNew, Backend.operate, hhead, Prog.run_bind, run_attempt]
  cases hrun : (headToPublish E now).run (Backend.memory.exec E) s.store with
  | mk r m =>
    have hrun' : (headToPublish E now).run MemoryStore.exec s.store = (r, m) := hrun
    rw [hrun']
    cases r with
    | error e => exact ⟨rfl, rfl⟩
    | ok head =>
      cases head with
      | none => exact ⟨rfl, rfl⟩
      | some sth =>
        have hpublish : (publishHead backend submittedAt sth).run (Rail.exec E .memory respond) { s with store := m } = _ :=
          run_publishHead E backend submittedAt sth { s with store := m }
        simp only [Except.mapError, Except.toOption, Option.join_some, hpublish, Backend.publish,
          Backend.getPublicLogReceipt, SignedTreeHead.publication, Backend.refusesReceipt, hrespond]
        by_cases hfound : (s.receipts.lookup (backend, sth.treeSize, sth.rootHash)).isSome = true
        · simp [hfound]
        · simp [hfound]

section Race

variable (respond : List (String × SignedTreeHead) → PublicLogResponse)

/-- Two publishers over one store of dicts. -/
private abbrev RailWorld : Type := World Bool RailCall.Ans ServiceError OperationReply RailRequest (Rail .memory)

private theorem advance_lookup {w : RailWorld} {i : Bool} {r : RailRequest} {s : Rail .memory} {backend submittedAt : String}
    {sth : SignedTreeHead} (hp : w.running i = some ⟨r, s, publishHead backend submittedAt sth⟩)
    (hnone : w.view.shared.receipts.lookup (sth.publication backend) = none) :
    (act (RailRequest.program E cfg) (Rail.exec E .memory respond) w (.advance i)).view.shared = w.view.shared ∧
      (act (RailRequest.program E cfg) (Rail.exec E .memory respond) w (.advance i)).running i =
        some ⟨r, s, submitHead backend submittedAt sth⟩ ∧
      ∀ j, j ≠ i → (act (RailRequest.program E cfg) (Rail.exec E .memory respond) w (.advance i)).running j =
        w.running j := by
  obtain ⟨hshared, hrunning, hothers⟩ := advance_call (RailRequest.program E cfg) (Rail.exec E .memory respond) hp
  have hanswer : (Rail.exec E .memory respond (.lookup (sth.publication backend)) w.view.shared).1 = none := hnone
  rw [hanswer] at hrunning
  exact ⟨hshared, hrunning, hothers⟩

/-- Two publishers that look the head up before either inserts it both submit it. -/
private theorem both_submit {now : Nat → Datetime} {m m' : MemoryStore} {sth : SignedTreeHead}
    (hfirst : (headToPublish E now).run MemoryStore.exec m = (.ok (some sth), m'))
    (hsecond : (headToPublish E now).run MemoryStore.exec m' = (.ok (some sth), m')) :
    ∃ as : List (Action Bool RailRequest), (after (RailRequest.program E cfg) (Rail.exec E .memory respond)
      (World.idle { store := m }) as).view.shared.submissions = [("rekor", sth), ("rekor", sth)] := by
  have hhead : ∀ m₁ : MemoryStore, (headToPublish E now).run MemoryStore.exec m₁ = (.ok (some sth), m') →
      (attempt (headToPublish E now)).run (Rail.exec E .memory respond) { store := m₁ } =
        (.ok (some (some sth)), { store := m' }) := by
    intro m₁ hrun
    have hrun' : (headToPublish E now).run (Backend.memory.exec E) m₁ = (.ok (some sth), m') := hrun
    rw [run_attempt, hrun']
    rfl
  let w₀ : RailWorld := after (RailRequest.program E cfg) (Rail.exec E .memory respond) (World.idle { store := m })
      [.start false (.publish now "rekor" ""), .start true (.publish now "rekor" "")]
  have hstart : ∀ i, w₀.running i = some ⟨.publish now "rekor" "", { store := m }, publishIfNew E now "rekor" ""⟩ := by
    intro i
    cases i <;> rfl
  -- the first publisher takes the head and looks it up
  obtain ⟨n, hshared₁, hrunning₁, hothers₁⟩ := advance_bind (RailRequest.program E cfg) (Rail.exec E .memory respond)
    (hstart false) (hhead m hfirst)
  obtain ⟨w₁, hw₁⟩ : ∃ w₁, w₁ = after (RailRequest.program E cfg) (Rail.exec E .memory respond) w₀
    (List.replicate n (.advance false)) := ⟨_, rfl⟩
  rw [← hw₁] at hshared₁ hrunning₁ hothers₁
  obtain ⟨hshared₂, hrunning₂, hothers₂⟩ := advance_lookup E cfg respond hrunning₁ (by rw [hshared₁]; rfl)
  obtain ⟨w₂, hw₂⟩ : ∃ w₂, w₂ = act (RailRequest.program E cfg) (Rail.exec E .memory respond) w₁ (.advance false) :=
    ⟨_, rfl⟩
  rw [← hw₂] at hshared₂ hrunning₂ hothers₂
  rw [hshared₁] at hshared₂
  -- then the second one does, and submits it
  have hsecondStart : w₂.running true = some ⟨.publish now "rekor" "", { store := m }, publishIfNew E now "rekor" ""⟩ :=
    (hothers₂ true (by decide)).trans ((hothers₁ true (by decide)).trans (hstart true))
  obtain ⟨k, hshared₃, hrunning₃, hothers₃⟩ := advance_bind (RailRequest.program E cfg) (Rail.exec E .memory respond)
    hsecondStart (by rw [hshared₂]; exact hhead m' hsecond)
  obtain ⟨w₃, hw₃⟩ : ∃ w₃, w₃ = after (RailRequest.program E cfg) (Rail.exec E .memory respond) w₂
    (List.replicate k (.advance true)) := ⟨_, rfl⟩
  rw [← hw₃] at hshared₃ hrunning₃ hothers₃
  obtain ⟨hshared₄, hrunning₄, hothers₄⟩ := advance_lookup E cfg respond hrunning₃ (by rw [hshared₃]; rfl)
  obtain ⟨w₄, hw₄⟩ : ∃ w₄, w₄ = act (RailRequest.program E cfg) (Rail.exec E .memory respond) w₃ (.advance true) :=
    ⟨_, rfl⟩
  rw [← hw₄] at hshared₄ hrunning₄ hothers₄
  obtain ⟨hshared₅, -, hothers₅⟩ := advance_call (RailRequest.program E cfg) (Rail.exec E .memory respond) hrunning₄
  rw [hshared₄, hshared₃] at hshared₅
  -- and the first one submits what it has looked up
  have hfirstRest : (act (RailRequest.program E cfg) (Rail.exec E .memory respond) w₄ (.advance true)).running false =
      some ⟨.publish now "rekor" "", { store := m }, submitHead "rekor" "" sth⟩ :=
    (hothers₅ false (by decide)).trans ((hothers₄ false (by decide)).trans ((hothers₃ false (by decide)).trans hrunning₂))
  obtain ⟨hshared₆, -, -⟩ := advance_call (RailRequest.program E cfg) (Rail.exec E .memory respond) hfirstRest
  rw [hshared₅] at hshared₆
  refine ⟨[.start false (.publish now "rekor" ""), .start true (.publish now "rekor" "")] ++
    (List.replicate n (.advance false) ++ (.advance false :: (List.replicate k (.advance true) ++
      [.advance true, .advance true, .advance false]))), ?_⟩
  rw [after, Run.after_append, Run.after_append, Run.after_cons, Run.after_append]
  rw [hw₄, hw₃, hw₂, hw₁] at hshared₆
  exact congrArg Rail.submissions hshared₆

end Race

/-- Two calls find the same head of a log that had none. -/
private theorem heads_to_publish {m : MemoryStore} (hindexed : Indexed m.log) (hlog : m.log.length ≠ 0)
    (hlatest : m.latestSth = none) (hkey : m.latestSthKey = none) (now : Nat → Datetime) :
    (headToPublish E now).run MemoryStore.exec m =
      (.ok (some (headOver E m.log (now 0) (now 1))), m.putSth (headOver E m.log (now 0) (now 1))) ∧
    (headToPublish E now).run MemoryStore.exec (m.putSth (headOver E m.log (now 0) (now 1))) =
      (.ok (some (headOver E m.log (now 0) (now 1))), m.putSth (headOver E m.log (now 0) (now 1))) := by
  have hrun : ∀ {m₁ m₂ : MemoryStore} {sth : SignedTreeHead}, m₁.log.length ≠ 0 →
      (getSth E now).run MemoryStore.exec m₁ = (.ok sth, m₂) →
      (headToPublish E now).run MemoryStore.exec m₁ = (.ok (some sth), m₂) := by
    intro m₁ m₂ sth hne hget
    rw [headToPublish, Prog.run_bind_ok _ run_size, if_neg hne, Prog.run_map, hget]
    rfl
  constructor
  · refine hrun hlog ?_
    rw [getSth, Prog.run_bind_ok _ run_getLatestSth, hlatest]
    exact signAndPersistSth_run E hindexed _ _
  · have hput : (m.putSth (headOver E m.log (now 0) (now 1))).latestSth = some (headOver E m.log (now 0) (now 1)) := by
      simp [MemoryStore.putSth, hkey]
    have hsize : (m.putSth (headOver E m.log (now 0) (now 1))).log.length ≤
        (headOver E m.log (now 0) (now 1)).treeSize := by
      rw [log_putSth]
      exact le_refl _
    refine hrun (by rwa [log_putSth]) ?_
    rw [getSth, Prog.run_bind_ok _ run_getLatestSth, hput]
    simp only
    rw [Prog.run_bind_ok _ run_size, if_pos hsize]
    rfl

end CapsuleAnchor

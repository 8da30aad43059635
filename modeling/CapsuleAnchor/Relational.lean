import CapsuleAnchor.Raising
import CapsuleAnchor.Runs

/-!
# Two programs, and two runs

`AlikeUnless bad R p q`: from states that `R` relates, `q` ends as `p` does and keeps the states related, unless `p` ends in an
error that is `bad`.  The rules follow the programs: `bind` for a sequence, `Calls.alike` for a program against itself,
`raises` and `skips` for the places where the two texts differ.

`Run.erased` compares a run with the run of a part of its requests: where the steps that are left out keep the states related,
the others are answered alike.
-/

namespace Prog

variable {Call : Type} {Ans : Call → Type} {ε α β : Type} {σ τ : Type}

/-- The second program ends as the first one does, unless that ends in a `bad` error. -/
def AlikeUnless (bad : ε → Prop) (R : σ → τ → Prop) (exec : (c : Call) → σ → Ans c × σ) (exec' : (c : Call) → τ → Ans c × τ)
    (p q : Prog Call Ans ε α) : Prop :=
  ∀ s t, R s t → (∃ e, (p.run exec s).1 = .error e ∧ bad e) ∨
    (q.run exec' t).1 = (p.run exec s).1 ∧ R (p.run exec s).2 (q.run exec' t).2

namespace AlikeUnless

variable {bad : ε → Prop} {R : σ → τ → Prop} {exec : (c : Call) → σ → Ans c × σ} {exec' : (c : Call) → τ → Ans c × τ}

theorem bind {p q : Prog Call Ans ε α} {f g : α → Prog Call Ans ε β} (hp : AlikeUnless bad R exec exec' p q)
    (hf : ∀ a, AlikeUnless bad R exec exec' (f a) (g a)) : AlikeUnless bad R exec exec' (p >>= f) (q >>= g) := by
  intro s t hst
  rw [run_bind, run_bind]
  have hends := hp s t hst
  cases hrun : p.run exec s with
  | mk r s' =>
    cases hrun' : q.run exec' t with
    | mk r' t' =>
      rw [hrun, hrun'] at hends
      rcases hends with ⟨e, rfl, he⟩ | ⟨rfl, hst'⟩
      · exact .inl ⟨e, rfl, he⟩
      · cases r' with
        | ok a => exact hf a s' t' hst'
        | error e => exact .inr ⟨rfl, hst'⟩

theorem pure (a : α) : AlikeUnless bad R exec exec' (Pure.pure a : Prog Call Ans ε α) (Pure.pure a) :=
  fun _ _ hst => .inr ⟨rfl, hst⟩

theorem map {p q : Prog Call Ans ε α} (hp : AlikeUnless bad R exec exec' p q) (f : α → β) :
    AlikeUnless bad R exec exec' (f <$> p) (f <$> q) :=
  hp.bind fun a => .pure (f a)

/-- The first program raises where the second one need not. -/
theorem raises {e : ε} (he : bad e) (q : Prog Call Ans ε α) : AlikeUnless bad R exec exec' (throw e) q :=
  fun _ _ _ => .inl ⟨e, rfl, he⟩

/-- The first program makes a call that the second one leaves out. -/
theorem skips {c : Call} {a : Ans c} (ha : ∀ s, (exec c s).1 = a) (hkeeps : ∀ s t, R s t → R (exec c s).2 t) :
    AlikeUnless bad R exec exec' (perform c : Prog Call Ans ε _) (Prog.pure a) := by
  intro s t hst
  refine .inr ⟨?_, hkeeps s t hst⟩
  rw [run_perform, ha]
  rfl

end AlikeUnless

/-- A program whose calls are answered alike ends alike. -/
theorem Calls.alike {bad : ε → Prop} {R : σ → τ → Prop} {exec : (c : Call) → σ → Ans c × σ}
    {exec' : (c : Call) → τ → Ans c × τ} {P : Call → Prop}
    (hcall : ∀ c s t, P c → R s t → (exec' c t).1 = (exec c s).1 ∧ R (exec c s).2 (exec' c t).2)
    {p : Prog Call Ans ε α} (hp : p.Calls P) : AlikeUnless bad R exec exec' p p := by
  induction p with
  | pure a => exact .pure a
  | throw e => exact fun _ _ hst => .inr ⟨rfl, hst⟩
  | call c k ih =>
    intro s t hst
    obtain ⟨hanswer, hkept⟩ := hcall c s t hp.1 hst
    rw [run, run, hanswer]
    exact ih _ (hp.2 _) _ _ hkept

end Prog

namespace Run

variable {σ τ ρ ω : Type}

/-- The run of the requests whose events are kept, of a service that answers these alike and that the other events leave
related. -/
theorem erased {step : σ → ρ → ω × σ} {step' : τ → ρ → ω × τ} {R : σ → τ → Prop} {keep : Event σ ρ ω → Bool}
    (hkeep : ∀ s t r, R s t → keep ⟨s, r, (step s r).1, (step s r).2⟩ = true →
      (step' t r).1 = (step s r).1 ∧ R (step s r).2 (step' t r).2)
    (hdrop : ∀ s t r, R s t → keep ⟨s, r, (step s r).1, (step s r).2⟩ = false → R (step s r).2 t)
    {s : σ} {t : τ} (h : R s t) (rs : List ρ) :
    let es := (trace step s rs).filter keep
    (trace step' t (es.map Event.request)).map Event.reply = es.map Event.reply ∧
      R (after step s rs) (after step' t (es.map Event.request)) := by
  induction rs generalizing s t with
  | nil => exact ⟨rfl, h⟩
  | cons r rs ih =>
    simp only [trace, after_cons]
    by_cases hr : keep ⟨s, r, (step s r).1, (step s r).2⟩ = true
    · obtain ⟨hreply, hrelated⟩ := hkeep s t r h hr
      obtain ⟨hreplies, hend⟩ := ih hrelated
      rw [List.filter_cons_of_pos hr, List.map_cons, trace, List.map_cons, List.map_cons, after_cons, hreply, hreplies]
      exact ⟨rfl, hend⟩
    · rw [List.filter_cons_of_neg hr]
      exact ih (hdrop s t r h (by simpa using hr))

end Run

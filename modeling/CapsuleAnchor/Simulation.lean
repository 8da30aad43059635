import CapsuleAnchor.Raising

/-!
# One program over two services

A relation between the states of two services simulates the calls that `ok` admits if it makes the two answer them alike
and keeps itself.  A program that makes admitted calls only, as it runs over the first service (`Admitted`), then runs over
the second one as it does over the first (`Admitted.simulates`), also where the second service may refuse a call.

The rules for `Admitted` follow the program: `bind` for a sequence, `perform` for one call, `Calls.admitted` for a program
all of whose calls are admitted in every state that an invariant holds of.
-/

namespace Prog

variable {Call : Type} {Ans : Call → Type} {ε α β : Type} {σ τ : Type}

/-- Every call that the program makes as it runs alone from this state is admitted where it is made. -/
def Admitted (ok : Call → σ → Prop) (exec : (c : Call) → σ → Ans c × σ) : Prog Call Ans ε α → σ → Prop
  | pure _, _ => True
  | throw _, _ => True
  | call c k, s => ok c s ∧ (k (exec c s).1).Admitted ok exec (exec c s).2

namespace Admitted

variable {ok : Call → σ → Prop} {exec : (c : Call) → σ → Ans c × σ} {s s' : σ}

theorem bind {p : Prog Call Ans ε α} {f : α → Prog Call Ans ε β} (hp : p.Admitted ok exec s)
    (hf : ∀ a s', p.run exec s = (.ok a, s') → (f a).Admitted ok exec s') : (p >>= f).Admitted ok exec s := by
  induction p generalizing s with
  | pure a => exact hf a s rfl
  | throw e => trivial
  | call c k ih => exact ⟨hp.1, ih (exec c s).1 hp.2 hf⟩

/-- A sequence whose first part is known to return. -/
theorem bind_ok {p : Prog Call Ans ε α} {f : α → Prog Call Ans ε β} {a : α} (hp : p.Admitted ok exec s)
    (hrun : p.run exec s = (.ok a, s')) (hf : (f a).Admitted ok exec s') : (p >>= f).Admitted ok exec s := by
  refine hp.bind ?_
  intro b s'' hrun'
  rw [hrun] at hrun'
  cases hrun'
  exact hf

theorem map {p : Prog Call Ans ε α} (hp : p.Admitted ok exec s) (f : α → β) : (f <$> p).Admitted ok exec s :=
  hp.bind fun _ _ _ => trivial

theorem perform {c : Call} (h : ok c s) : (perform c : Prog Call Ans ε _).Admitted ok exec s := ⟨h, trivial⟩

theorem ofExcept (x : Except ε α) : (ofExcept x : Prog Call Ans ε α).Admitted ok exec s := by
  cases x <;> trivial

/-- The second service ends as the first one does, in a state that the relation relates to its state. -/
theorem simulates {raises : Call → τ → Prop} [∀ c t, Decidable (raises c t)] {exec' : (c : Call) → τ → Ans c × τ}
    {R : σ → τ → Prop} (hcall : ∀ c s t, R s t → ok c s →
      ¬ raises c t ∧ (exec' c t).1 = (exec c s).1 ∧ R (exec c s).2 (exec' c t).2)
    {p : Prog Call Ans ε α} {s : σ} {t : τ} (hp : p.Admitted ok exec s) (hr : R s t) :
    (p.runRaising raises exec' t).1 = (p.run exec s).1.mapError some ∧
      R (p.run exec s).2 (p.runRaising raises exec' t).2 := by
  induction p generalizing s t with
  | pure a => exact ⟨rfl, hr⟩
  | throw e => exact ⟨rfl, hr⟩
  | call c k ih =>
    obtain ⟨hraises, hanswer, hkept⟩ := hcall c s t hr hp.1
    rw [runRaising, if_neg hraises, run, hanswer]
    exact ih (exec c s).1 hp.2 hkept

end Admitted

/-- A program is admitted whose calls are admitted in every state of an invariant that they keep. -/
theorem Calls.admitted {P : Call → Prop} {I : σ → Prop} {ok : Call → σ → Prop} {exec : (c : Call) → σ → Ans c × σ}
    (h : ∀ c s, P c → I s → ok c s ∧ I (exec c s).2) {p : Prog Call Ans ε α} (hp : p.Calls P) {s : σ} (hs : I s) :
    p.Admitted ok exec s := by
  induction p generalizing s with
  | pure a => trivial
  | throw e => trivial
  | call c k ih =>
    obtain ⟨hok, hkept⟩ := h c s hp.1 hs
    exact ⟨hok, ih (exec c s).1 (hp.2 _) hkept⟩

end Prog

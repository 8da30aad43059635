import CapsuleAnchor.Program

/-!
# Calls that raise

A service may refuse a call with an exception of its own; it then leaves its state as it was, and the program that made
the call ends there.  `runRaising` executes a program over such a service: `raises c s` says that the call `c` is
refused in the state `s`.  The result is an error of the program, `some e`, or the exception of a call, `none`.

`Calls P` says that every call of a program satisfies `P`, whatever it is answered; what the calls of `P` leave alone, the
program leaves alone (`frame`).
-/

namespace Prog

variable {Call : Type} {Ans : Call → Type} {ε α β : Type} {σ τ : Type}

/-! ### Execution -/

section Raising

variable (raises : Call → σ → Prop) [∀ c s, Decidable (raises c s)] (exec : (c : Call) → σ → Ans c × σ)

def runRaising : Prog Call Ans ε α → σ → Except (Option ε) α × σ
  | pure a, s => (.ok a, s)
  | throw e, s => (.error (some e), s)
  | call c k, s => if raises c s then (.error none, s) else (k (exec c s).1).runRaising (exec c s).2

@[simp] theorem runRaising_pure (a : α) (s : σ) :
    (Pure.pure a : Prog Call Ans ε α).runRaising raises exec s = (.ok a, s) := rfl

@[simp] theorem runRaising_throw (e : ε) (s : σ) :
    (throw e : Prog Call Ans ε α).runRaising raises exec s = (.error (some e), s) := rfl

theorem runRaising_bind (p : Prog Call Ans ε α) (f : α → Prog Call Ans ε β) (s : σ) :
    (p >>= f).runRaising raises exec s =
      match p.runRaising raises exec s with
      | (.ok a, s') => (f a).runRaising raises exec s'
      | (.error e, s') => (.error e, s') := by
  induction p generalizing s with
  | pure a => rfl
  | throw e => rfl
  | call c k ih =>
    by_cases hraises : raises c s
    · simp [runRaising, hraises]
    · rw [call_bind]
      simp only [runRaising, if_neg hraises]
      exact ih (exec c s).1 (exec c s).2

theorem runRaising_map (f : α → β) (p : Prog Call Ans ε α) (s : σ) :
    (f <$> p).runRaising raises exec s =
      ((p.runRaising raises exec s).1.map f, (p.runRaising raises exec s).2) := by
  change (p >>= fun a => Pure.pure (f a)).runRaising raises exec s = _
  rw [runRaising_bind]
  cases h : p.runRaising raises exec s with
  | mk r s' => cases r <;> rfl

variable {raises exec} {s s' : σ}

theorem runRaising_bind_ok {p : Prog Call Ans ε α} {f : α → Prog Call Ans ε β} {a : α}
    (h : p.runRaising raises exec s = (.ok a, s')) :
    (p >>= f).runRaising raises exec s = (f a).runRaising raises exec s' := by
  rw [runRaising_bind, h]

theorem runRaising_bind_error {p : Prog Call Ans ε α} {f : α → Prog Call Ans ε β} {e : Option ε}
    (h : p.runRaising raises exec s = (.error e, s')) : (p >>= f).runRaising raises exec s = (.error e, s') := by
  rw [runRaising_bind, h]

/-- A sequence that returns has parts that return. -/
theorem runRaising_bind_returns {p : Prog Call Ans ε α} {f : α → Prog Call Ans ε β} {b : β}
    (h : (p >>= f).runRaising raises exec s = (.ok b, s')) :
    ∃ a s₁, p.runRaising raises exec s = (.ok a, s₁) ∧ (f a).runRaising raises exec s₁ = (.ok b, s') := by
  rw [runRaising_bind] at h
  cases hrun : p.runRaising raises exec s with
  | mk r s₁ =>
    rw [hrun] at h
    cases r with
    | error e => cases h
    | ok a => exact ⟨a, s₁, rfl, h⟩

theorem runRaising_perform {c : Call} (h : ¬ raises c s) :
    (perform c : Prog Call Ans ε _).runRaising raises exec s = (.ok (exec c s).1, (exec c s).2) := by
  simp [perform, runRaising, h]

theorem runRaising_perform_raised {c : Call} (h : raises c s) :
    (perform c : Prog Call Ans ε _).runRaising raises exec s = (.error none, s) := by
  simp [perform, runRaising, h]

/-- A call that returns was not refused. -/
theorem not_raises_of_perform {c : Call} {x : Ans c}
    (h : (perform c : Prog Call Ans ε _).runRaising raises exec s = (.ok x, s')) : ¬ raises c s := by
  intro hraises
  rw [runRaising_perform_raised hraises] at h
  cases h

/-- The program ends without an exception. -/
def Returns (raises : Call → σ → Prop) [∀ c s, Decidable (raises c s)] (exec : (c : Call) → σ → Ans c × σ)
    (p : Prog Call Ans ε α) (s : σ) : Prop := ∃ a s', p.runRaising raises exec s = (.ok a, s')

theorem returns_bind {p : Prog Call Ans ε α} {f : α → Prog Call Ans ε β} {a : α}
    (h : p.runRaising raises exec s = (.ok a, s')) :
    (p >>= f).Returns raises exec s ↔ (f a).Returns raises exec s' := by
  rw [Returns, Returns, runRaising_bind_ok h]

theorem not_returns_bind {p : Prog Call Ans ε α} {f : α → Prog Call Ans ε β} (h : ¬ p.Returns raises exec s) :
    ¬ (p >>= f).Returns raises exec s := by
  rintro ⟨b, s', hrun⟩
  obtain ⟨a, s₁, hp, -⟩ := runRaising_bind_returns hrun
  exact h ⟨a, s₁, hp⟩

theorem returns_perform {c : Call} : (perform c : Prog Call Ans ε _).Returns raises exec s ↔ ¬ raises c s := by
  constructor
  · rintro ⟨x, s', hrun⟩
    exact not_raises_of_perform hrun
  · intro h
    exact ⟨_, _, runRaising_perform h⟩

theorem not_returns {p : Prog Call Ans ε α} :
    ¬ p.Returns raises exec s ↔ ∃ e, p.runRaising raises exec s = (.error e, (p.runRaising raises exec s).2) := by
  rw [Returns]
  cases h : p.runRaising raises exec s with
  | mk r s' => cases r <;> simp

@[simp] theorem runRaising_ofExcept (r : Except ε α) (s : σ) :
    (ofExcept r : Prog Call Ans ε α).runRaising raises exec s = (r.mapError some, s) := by
  cases r <;> rfl

/-- Where no call is refused, a program runs as it does alone. -/
theorem runRaising_never (h : ∀ c s, ¬ raises c s) (p : Prog Call Ans ε α) (s : σ) :
    p.runRaising raises exec s = ((p.run exec s).1.mapError some, (p.run exec s).2) := by
  induction p generalizing s with
  | pure a => rfl
  | throw e => rfl
  | call c k ih =>
    rw [runRaising, if_neg (h c s), ih]
    rfl

end Raising

/-! ### The calls of a program -/

/-- Every call the program can make satisfies `P`. -/
def Calls (P : Call → Prop) : Prog Call Ans ε α → Prop
  | pure _ => True
  | throw _ => True
  | call c k => P c ∧ ∀ x, (k x).Calls P

section Calls

variable {P : Call → Prop}

theorem Calls.bind {p : Prog Call Ans ε α} {f : α → Prog Call Ans ε β} (hp : p.Calls P) (hf : ∀ a, (f a).Calls P) :
    (p >>= f).Calls P := by
  induction p with
  | pure a => exact hf a
  | throw e => trivial
  | call c k ih => exact ⟨hp.1, fun x => ih x (hp.2 x)⟩

theorem Calls.map {p : Prog Call Ans ε α} (hp : p.Calls P) (f : α → β) : (f <$> p).Calls P :=
  hp.bind fun _ => trivial

theorem Calls.mono {Q : Call → Prop} (h : ∀ c, P c → Q c) {p : Prog Call Ans ε α} (hp : p.Calls P) : p.Calls Q := by
  induction p with
  | pure a => trivial
  | throw e => trivial
  | call c k ih => exact ⟨h c hp.1, fun x => ih x (hp.2 x)⟩

theorem Calls.perform {c : Call} (h : P c) : (perform c : Prog Call Ans ε _).Calls P := ⟨h, fun _ => trivial⟩

theorem Calls.ofExcept (x : Except ε α) : (ofExcept x : Prog Call Ans ε α).Calls P := by
  cases x <;> trivial

/-- The program keeps the invariant, however it ends. -/
def Stays (raises : Call → σ → Prop) [∀ c s, Decidable (raises c s)] (exec : (c : Call) → σ → Ans c × σ)
    (I : σ → Prop) (p : Prog Call Ans ε α) : Prop := ∀ s, I s → I (p.runRaising raises exec s).2

section Stays

variable {raises : Call → σ → Prop} [∀ c s, Decidable (raises c s)] {exec : (c : Call) → σ → Ans c × σ} {I : σ → Prop}

theorem Stays.bind {p : Prog Call Ans ε α} {f : α → Prog Call Ans ε β} (hp : p.Stays raises exec I)
    (hf : ∀ a, (f a).Stays raises exec I) : (p >>= f).Stays raises exec I := by
  intro s hs
  have hmid := hp s hs
  rw [runRaising_bind]
  cases hrun : p.runRaising raises exec s with
  | mk r s' =>
    rw [hrun] at hmid
    cases r with
    | ok a => exact hf a s' hmid
    | error e => exact hmid

theorem Stays.map {p : Prog Call Ans ε α} (hp : p.Stays raises exec I) (f : α → β) : (f <$> p).Stays raises exec I :=
  hp.bind fun _ _ hs => hs

/-- A program keeps what its calls keep. -/
theorem Calls.stays (hkeeps : ∀ c s, P c → I s → I (exec c s).2) {p : Prog Call Ans ε α} (hp : p.Calls P) :
    p.Stays raises exec I := by
  induction p with
  | pure a => exact fun s hs => hs
  | throw e => exact fun s hs => hs
  | call c k ih =>
    intro s hs
    rw [runRaising]
    split
    · exact hs
    · exact ih _ (hp.2 _) _ (hkeeps c s hp.1 hs)

end Stays

/-- A program leaves alone what its calls leave alone. -/
theorem Calls.frame {raises : Call → σ → Prop} [∀ c s, Decidable (raises c s)] {exec : (c : Call) → σ → Ans c × σ}
    (field : σ → τ) (hframe : ∀ c s, P c → field (exec c s).2 = field s) {p : Prog Call Ans ε α} (hp : p.Calls P)
    (s : σ) : field (p.runRaising raises exec s).2 = field s := by
  refine Calls.stays (P := P) (I := fun t => field t = field s) ?_ hp s rfl
  intro c t hc ht
  rw [hframe c t hc, ht]

end Calls

/-! ### The exceptions of a program -/

/-- Every exception that the program raises by itself satisfies `P`. -/
def Throws (P : ε → Prop) : Prog Call Ans ε α → Prop
  | pure _ => True
  | throw e => P e
  | call _ k => ∀ x, (k x).Throws P

section Throws

variable {P : ε → Prop}

theorem Throws.bind {p : Prog Call Ans ε α} {f : α → Prog Call Ans ε β} (hp : p.Throws P) (hf : ∀ a, (f a).Throws P) :
    (p >>= f).Throws P := by
  induction p with
  | pure a => exact hf a
  | throw e => exact hp
  | call c k ih => exact fun x => ih x (hp x)

theorem Throws.map {p : Prog Call Ans ε α} (hp : p.Throws P) (f : α → β) : (f <$> p).Throws P := hp.bind fun _ => trivial

theorem Throws.perform (c : Call) : (perform c : Prog Call Ans ε _).Throws P := fun _ => trivial

theorem Throws.run_error {exec : (c : Call) → σ → Ans c × σ} {p : Prog Call Ans ε α} (hp : p.Throws P) {s : σ} {e : ε}
    (h : (p.run exec s).1 = .error e) : P e := by
  induction p generalizing s with
  | pure a => cases h
  | throw e' =>
    obtain rfl := Except.error.inj h
    exact hp
  | call c k ih => exact ih _ (hp _) h

/-- What the program ends with is one of them, or the exception of a call. -/
theorem Throws.error {raises : Call → σ → Prop} [∀ c s, Decidable (raises c s)] {exec : (c : Call) → σ → Ans c × σ}
    {p : Prog Call Ans ε α} (hp : p.Throws P) {s : σ} {e : ε} (h : (p.runRaising raises exec s).1 = .error (some e)) :
    P e := by
  induction p generalizing s with
  | pure a => cases h
  | throw e' =>
    obtain rfl := Option.some.inj (Except.error.inj h)
    exact hp
  | call c k ih =>
    rw [runRaising] at h
    split at h
    · cases h
    · exact ih _ (hp _) h

end Throws

end Prog

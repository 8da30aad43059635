import Mathlib

/-!
# Runs of a step function

A service that answers one request at a time: `step s r` is the answer and the next state.  `after` is the state a
list of requests leads to, `trace` lists what happened at each of them.

`invariant` and `related` carry a property of one step to whole runs, `history` one that also speaks of the steps so
far, `paired` one of two services; `trace_split` finds the run before an event and `trace_pairwise` relates the states between two events.
-/

namespace Run

variable {σ ρ ω : Type} (step : σ → ρ → ω × σ)

/-- One step of a run. -/
structure Event (σ ρ ω : Type) where
  before : σ
  request : ρ
  reply : ω
  after : σ

/-- The state after a list of requests. -/
def after (s : σ) (rs : List ρ) : σ := rs.foldl (fun s r => (step s r).2) s

/-- The steps of the run. -/
def trace : σ → List ρ → List (Event σ ρ ω)
  | _, [] => []
  | s, r :: rs => ⟨s, r, (step s r).1, (step s r).2⟩ :: trace (step s r).2 rs

@[simp] theorem after_nil (s : σ) : after step s [] = s := rfl

@[simp] theorem after_cons (s : σ) (r : ρ) (rs : List ρ) :
    after step s (r :: rs) = after step (step s r).2 rs := rfl

theorem after_append (s : σ) (rs ts : List ρ) :
    after step s (rs ++ ts) = after step (after step s rs) ts := by
  simp [after]

theorem trace_append (s : σ) (rs ts : List ρ) :
    trace step s (rs ++ ts) = trace step s rs ++ trace step (after step s rs) ts := by
  induction rs generalizing s with
  | nil => rfl
  | cons r rs ih => simp [trace, ih]

/-- An event of a run happens after some of its requests. -/
theorem trace_split {s : σ} {rs : List ρ} {e : Event σ ρ ω} (h : e ∈ trace step s rs) :
    ∃ pre post, rs = pre ++ e.request :: post ∧ e.before = after step s pre ∧
      e.reply = (step e.before e.request).1 ∧ e.after = (step e.before e.request).2 := by
  induction rs generalizing s with
  | nil => simp [trace] at h
  | cons r rs ih =>
    rcases List.mem_cons.1 h with rfl | h
    · exact ⟨[], rs, rfl, rfl, rfl, rfl⟩
    · obtain ⟨pre, post, rfl, hb, hr, ha⟩ := ih h
      exact ⟨r :: pre, post, rfl, hb, hr, ha⟩

/-- The events before one of a run are themselves a run, up to the state it finds. -/
theorem trace_eq_append {s : σ} {rs : List ρ} {pre post : List (Event σ ρ ω)} {e : Event σ ρ ω}
    (h : trace step s rs = pre ++ e :: post) :
    ∃ rs₁ rs₂, rs = rs₁ ++ e.request :: rs₂ ∧ trace step s rs₁ = pre ∧ e.before = after step s rs₁ := by
  induction pre generalizing s rs with
  | nil =>
    cases rs with
    | nil => cases h
    | cons r rs =>
      obtain ⟨rfl, -⟩ := List.cons.inj h
      exact ⟨[], rs, rfl, rfl, rfl⟩
  | cons e' pre ih =>
    cases rs with
    | nil => cases h
    | cons r rs =>
      obtain ⟨rfl, htail⟩ := List.cons.inj h
      obtain ⟨rs₁, rs₂, rfl, rfl, hbefore⟩ := ih htail
      exact ⟨r :: rs₁, rs₂, rfl, rfl, hbefore⟩

/-- Two services that every step that `A` allows makes answer alike and keeps related do so in every run whose steps it
allows. -/
theorem paired {τ : Type} {step' : τ → ρ → ω × τ} {R : σ → τ → Prop} {A : σ → ρ → Prop}
    (hstep : ∀ s t r, R s t → A s r → (step' t r).1 = (step s r).1 ∧ R (step s r).2 (step' t r).2) {s : σ} {t : τ}
    (h : R s t) {rs : List ρ} (hA : ∀ e ∈ trace step s rs, A e.before e.request) :
    (trace step' t rs).map Event.reply = (trace step s rs).map Event.reply ∧
      R (after step s rs) (after step' t rs) := by
  induction rs generalizing s t with
  | nil => exact ⟨rfl, h⟩
  | cons r rs ih =>
    obtain ⟨hreply, hrelated⟩ := hstep s t r h (hA _ List.mem_cons_self)
    obtain ⟨hreplies, hend⟩ := ih hrelated (fun e he => hA e (List.mem_cons_of_mem _ he))
    refine ⟨?_, hend⟩
    rw [trace, trace, List.map_cons, List.map_cons, hreply, hreplies]

/-- What every step that `A` allows keeps holds after every run whose steps it allows. -/
theorem invariant_along {I : σ → Prop} {A : σ → ρ → Prop} (hstep : ∀ s r, A s r → I s → I (step s r).2) {s : σ}
    (h : I s) {rs : List ρ} (hA : ∀ e ∈ trace step s rs, A e.before e.request) : I (after step s rs) := by
  induction rs generalizing s with
  | nil => exact h
  | cons r rs ih =>
    have hr : A s r := hA _ List.mem_cons_self
    exact ih (hstep s r hr h) (fun e he => hA e (List.mem_cons_of_mem _ he))

/-- What every step with a request from `Q` keeps holds after every run of such requests. -/
theorem invariant_of {I : σ → Prop} {Q : ρ → Prop} (hstep : ∀ s r, Q r → I s → I (step s r).2) {s : σ} (h : I s)
    {rs : List ρ} (hQ : ∀ r ∈ rs, Q r) : I (after step s rs) := by
  refine invariant_along step (A := fun _ r => Q r) hstep h ?_
  intro e he
  obtain ⟨pre, post, rfl, -⟩ := trace_split step he
  exact hQ e.request (by simp)

/-- What every step keeps holds after every run. -/
theorem invariant {I : σ → Prop} (hstep : ∀ s r, I s → I (step s r).2) {s : σ} (h : I s) (rs : List ρ) :
    I (after step s rs) :=
  invariant_of step (Q := fun _ => True) (fun s r _ => hstep s r) h (fun _ _ => trivial)

/-- A preorder that every step from a good state advances relates the ends of every run. -/
theorem related {I : σ → Prop} {R : σ → σ → Prop} (hrefl : ∀ s, R s s)
    (htrans : ∀ {a b c}, R a b → R b c → R a c) (hI : ∀ s r, I s → I (step s r).2)
    (hR : ∀ s r, I s → R s (step s r).2) {s : σ} (h : I s) (rs : List ρ) : R s (after step s rs) := by
  induction rs generalizing s with
  | nil => exact hrefl s
  | cons r rs ih => exact htrans (hR s r h) (ih (hI s r h))

/-- An event of a run from a good state is a step from a good state. -/
theorem mem_trace {I : σ → Prop} (hI : ∀ s r, I s → I (step s r).2) {s : σ} (h : I s) {rs : List ρ}
    {e : Event σ ρ ω} (he : e ∈ trace step s rs) :
    I e.before ∧ e.reply = (step e.before e.request).1 ∧ e.after = (step e.before e.request).2 := by
  obtain ⟨pre, post, -, hbefore, hstep⟩ := trace_split step he
  refine ⟨?_, hstep⟩
  rw [hbefore]
  exact invariant step hI h pre

/-- The state after an event leads to the state before a later one. -/
theorem trace_pairwise {I : σ → Prop} {R : σ → σ → Prop} (hrefl : ∀ s, R s s)
    (htrans : ∀ {a b c}, R a b → R b c → R a c) (hI : ∀ s r, I s → I (step s r).2)
    (hR : ∀ s r, I s → R s (step s r).2) {s : σ} (h : I s) (rs : List ρ) :
    (trace step s rs).Pairwise fun e e' => R e.after e'.before := by
  induction rs generalizing s with
  | nil => exact List.Pairwise.nil
  | cons r rs ih =>
    refine List.Pairwise.cons ?_ (ih (hI s r h))
    intro e he
    obtain ⟨pre, post, -, hbefore, -⟩ := trace_split step he
    rw [hbefore]
    exact related step hrefl htrans hI hR (hI s r h) pre

/-- What every step keeps of the steps so far and the state holds at the end of every run. -/
theorem history {P : List (Event σ ρ ω) → σ → Prop} {s : σ} (h : P [] s)
    (hstep : ∀ es s r, P es s → P (es ++ [⟨s, r, (step s r).1, (step s r).2⟩]) (step s r).2) (rs : List ρ) :
    P (trace step s rs) (after step s rs) := by
  induction rs using List.reverseRecOn with
  | nil => exact h
  | append_singleton rs r ih =>
    rw [trace_append, after_append]
    exact hstep _ _ r ih

/-- Every event of a list satisfies `P`, given the events before it. -/
def Each (P : List (Event σ ρ ω) → Event σ ρ ω → Prop) (es : List (Event σ ρ ω)) : Prop :=
  ∀ pre e post, es = pre ++ e :: post → P pre e

end Run

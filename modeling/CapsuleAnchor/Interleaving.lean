import CapsuleAnchor.Program
import CapsuleAnchor.Runs

/-!
# Interleaved programs over one shared state

Processes that share a state and run programs over it, one request after the other.  An action of the scheduler gives
an idle process a request or lets a process take one step: the next call of its program is answered by the shared
state, or the program ends and its `Outcome` is recorded.  A process stands for whatever runs one request at a time,
such as a service instance under its own lock.

A `Contract` says which calls a program may make after those it has made (its trail), which answers it counts on, and
how it may fail; `Keeps` is that a program obeys it, proved program by program.  `Protects` says that the shared state
supplies those answers and keeps an invariant, whoever calls.  `invariant` puts the two together for every schedule;
`answered_during` places each answer between the start and the end of its request.
-/

namespace Interleaving

variable {ι : Type} [DecidableEq ι] {Call : Type} {Ans : Call → Type} {ε α β ρ σ : Type}

/-- Calls with their answers, in the order they were made. -/
abbrev Trail (Ans : Call → Type) : Type := List (Σ c, Ans c)

/-- The shared state, what each running program has called, and what all of them ever called. -/
structure View (ι : Type) (Ans : Call → Type) (σ : Type) where
  shared : σ
  trails : ι → Trail Ans
  history : Trail Ans

/-- Process `i` makes a call, which leaves the state `s`. -/
def View.extend (v : View ι Ans σ) (i : ι) (e : Σ c, Ans c) (s : σ) : View ι Ans σ :=
  { shared := s, trails := Function.update v.trails i (v.trails i ++ [e]), history := v.history ++ [e] }

theorem View.trails_extend (v : View ι Ans σ) (i j : ι) (e : Σ c, Ans c) (s : σ) :
    (v.extend i e s).trails j = if j = i then v.trails i ++ [e] else v.trails j := Function.update_apply _ _ _ _

/-- The program of process `i` ends. -/
def View.clear (v : View ι Ans σ) (i : ι) : View ι Ans σ :=
  { v with trails := Function.update v.trails i [] }

theorem View.trails_clear (v : View ι Ans σ) (i j : ι) : (v.clear i).trails j = if j = i then [] else v.trails j :=
  Function.update_apply _ _ _ _

/-- A request being answered: the state it found, and what is left of its program. -/
structure Running (Ans : Call → Type) (ε α ρ σ : Type) where
  request : ρ
  start : σ
  rest : Prog Call Ans ε α

structure Outcome (ι : Type) (Ans : Call → Type) (ε α ρ σ : Type) where
  process : ι
  request : ρ
  start : σ
  trail : Trail Ans
  result : Except ε α
  finish : σ

structure World (ι : Type) (Ans : Call → Type) (ε α ρ σ : Type) where
  view : View ι Ans σ
  running : ι → Option (Running Ans ε α ρ σ)
  outcomes : List (Outcome ι Ans ε α ρ σ)

/-- All processes idle over the state `s`. -/
def World.idle (s : σ) : World ι Ans ε α ρ σ := ⟨⟨s, fun _ => [], []⟩, fun _ => none, []⟩

inductive Action (ι ρ : Type)
  | start (i : ι) (r : ρ)
  | advance (i : ι)

/-- Process `i` ends its request with `result`. -/
def World.finish (w : World ι Ans ε α ρ σ) (i : ι) (p : Running Ans ε α ρ σ) (result : Except ε α) :
    World ι Ans ε α ρ σ :=
  { view := w.view.clear i
    running := Function.update w.running i none
    outcomes := w.outcomes ++ [⟨i, p.request, p.start, w.view.trails i, result, w.view.shared⟩] }

variable (program : ρ → Prog Call Ans ε α) (exec : (c : Call) → σ → Ans c × σ)

/-- One action; a process that is running takes no request, an idle one no step. -/
def act (w : World ι Ans ε α ρ σ) : Action ι ρ → World ι Ans ε α ρ σ
  | .start i r =>
    match w.running i with
    | some _ => w
    | none => { w with running := Function.update w.running i (some ⟨r, w.view.shared, program r⟩) }
  | .advance i =>
    match w.running i with
    | none => w
    | some p =>
      match p.rest with
      | .pure a => w.finish i p (.ok a)
      | .throw e => w.finish i p (.error e)
      | .call c k =>
        { w with
          view := w.view.extend i ⟨c, (exec c w.view.shared).1⟩ (exec c w.view.shared).2
          running := Function.update w.running i (some { p with rest := k (exec c w.view.shared).1 }) }

/-- An action as the step of a run; the scheduler gets no answer. -/
def step (w : World ι Ans ε α ρ σ) (a : Action ι ρ) : Unit × World ι Ans ε α ρ σ := ((), act program exec w a)

/-- The world after a schedule. -/
abbrev after (w : World ι Ans ε α ρ σ) (as : List (Action ι ρ)) : World ι Ans ε α ρ σ :=
  Run.after (step program exec) w as

/-- The requests of a schedule. -/
def requests (as : List (Action ι ρ)) : List ρ :=
  as.filterMap fun
    | .start _ r => some r
    | .advance _ => none

/-- An action starts a request from `starts`, or makes a call that `allowed` allows. -/
def Obeys (starts : ρ → Prop) (allowed : ι → Call → View ι Ans σ → Prop) (w : World ι Ans ε α ρ σ) :
    Action ι ρ → Prop
  | .start _ r => starts r
  | .advance i => ∀ p c k, w.running i = some p → p.rest = .call c k → allowed i c w.view

/-- Every action of the schedule obeys. -/
def Permitted (starts : ρ → Prop) (allowed : ι → Call → View ι Ans σ → Prop) (w : World ι Ans ε α ρ σ)
    (as : List (Action ι ρ)) : Prop :=
  ∀ e ∈ Run.trace (step program exec) w as, Obeys starts allowed e.before e.request

/-- Every schedule is permitted when nothing is asked of it. -/
theorem permitted_any (w : World ι Ans ε α ρ σ) (as : List (Action ι ρ)) :
    Permitted program exec (fun _ => True) (fun _ _ _ => True) w as := by
  intro e _
  cases e.request with
  | start i r => trivial
  | advance i => exact fun _ _ _ _ _ => trivial

/-- A permitted schedule starts its own requests only. -/
theorem Permitted.of_requests {allowed : ι → Call → View ι Ans σ → Prop} {w : World ι Ans ε α ρ σ} {as : List (Action ι ρ)}
    {Q : ρ → Prop} (h : Permitted program exec (fun _ => True) allowed w as) (hQ : ∀ r ∈ requests as, Q r) :
    Permitted program exec Q allowed w as := by
  intro e he
  have hobeys := h e he
  obtain ⟨pre, post, hsplit, -⟩ := Run.trace_split _ he
  cases hrequest : e.request with
  | start i r =>
    refine hQ r (List.mem_filterMap.2 ⟨e.request, ?_, ?_⟩)
    · rw [hsplit]
      simp
    · rw [hrequest]
  | advance i =>
    rw [hrequest] at hobeys
    exact hobeys

/-- A permitted schedule can be continued with one that is permitted where it ends. -/
theorem Permitted.append {starts : ρ → Prop} {allowed : ι → Call → View ι Ans σ → Prop} {w : World ι Ans ε α ρ σ}
    {as bs : List (Action ι ρ)} (h : Permitted program exec starts allowed w as)
    (h' : Permitted program exec starts allowed (after program exec w as) bs) :
    Permitted program exec starts allowed w (as ++ bs) := by
  intro e he
  rw [Run.trace_append] at he
  rcases List.mem_append.1 he with he | he
  · exact h e he
  · exact h' e he

/-- Within a permitted schedule, each action obeys after a permitted one. -/
theorem Permitted.split {starts : ρ → Prop} {allowed : ι → Call → View ι Ans σ → Prop} {w : World ι Ans ε α ρ σ}
    {pre post : List (Action ι ρ)} {a : Action ι ρ} (h : Permitted program exec starts allowed w (pre ++ a :: post)) :
    Permitted program exec starts allowed w pre ∧ Obeys starts allowed (after program exec w pre) a := by
  constructor
  · intro e he
    refine h e ?_
    rw [Run.trace_append]
    exact List.mem_append_left _ he
  · refine h ⟨after program exec w pre, a, (), act program exec (after program exec w pre) a⟩ ?_
    rw [Run.trace_append]
    exact List.mem_append_right _ List.mem_cons_self

/-! ### Contracts -/

/-- What programs that answer requests do, in terms of the calls made so far. -/
structure Contract (Ans : Call → Type) (ε ρ : Type) where
  /-- The call may come next. -/
  may : ρ → Trail Ans → Call → Prop
  /-- The answer is one the program counts on. -/
  valid : Trail Ans → (c : Call) → Ans c → Prop
  /-- The program may fail so, after these calls. -/
  fails : ρ → ε → Trail Ans → Prop

/-- Run after the trail `t`, the program obeys the contract and ends in `Q`. -/
def Keeps (C : Contract Ans ε ρ) (r : ρ) : Prog Call Ans ε α → (α → Trail Ans → Prop) → Trail Ans → Prop
  | .pure a, Q, t => Q a t
  | .throw e, _, t => C.fails r e t
  | .call c k, Q, t => C.may r t c ∧ ∀ x, C.valid t c x → Keeps C r (k x) Q (t ++ [⟨c, x⟩])

/-- Every call of the trail came when it may, and was answered as the program counts on. -/
def Lawful (C : Contract Ans ε ρ) (r : ρ) (t : Trail Ans) : Prop :=
  ∀ pre e post, t = pre ++ e :: post → C.may r pre e.1 ∧ C.valid pre e.1 e.2

section Keeps

variable {C : Contract Ans ε ρ} {r : ρ}

theorem lawful_nil : Lawful C r [] := by
  intro pre e post h
  simp at h

theorem Lawful.extend {t : Trail Ans} (h : Lawful C r t) {c : Call} {x : Ans c} (hmay : C.may r t c)
    (hvalid : C.valid t c x) : Lawful C r (t ++ [⟨c, x⟩]) := by
  intro pre e post hsplit
  rcases List.eq_nil_or_concat post with rfl | ⟨post', last, rfl⟩
  · obtain ⟨rfl, rfl⟩ : t = pre ∧ ⟨c, x⟩ = e := by simpa using List.append_inj' hsplit rfl
    exact ⟨hmay, hvalid⟩
  · rw [List.concat_eq_append, ← List.cons_append, ← List.append_assoc] at hsplit
    exact h pre e post' (List.append_inj' hsplit rfl).1

theorem Keeps.mono {p : Prog Call Ans ε α} {Q Q' : α → Trail Ans → Prop} (hQ : ∀ a t, Q a t → Q' a t) {t : Trail Ans}
    (h : Keeps C r p Q t) : Keeps C r p Q' t := by
  induction p generalizing t with
  | pure a => exact hQ a t h
  | throw e => exact h
  | call c k ih => exact ⟨h.1, fun x hx => ih x (h.2 x hx)⟩

/-- A sequence keeps the contract when its second part does wherever its first part ends. -/
theorem Keeps.bind {p : Prog Call Ans ε α} {f : α → Prog Call Ans ε β} {Q : β → Trail Ans → Prop} {t : Trail Ans}
    (h : Keeps C r p (fun a t => Keeps C r (f a) Q t) t) : Keeps C r (p >>= f) Q t := by
  induction p generalizing t with
  | pure a => exact h
  | throw e => exact h
  | call c k ih => exact ⟨h.1, fun x hx => ih x (h.2 x hx)⟩

theorem Keeps.map {p : Prog Call Ans ε α} {f : α → β} {Q : β → Trail Ans → Prop} {t : Trail Ans}
    (h : Keeps C r p (fun a t => Q (f a) t) t) : Keeps C r (f <$> p) Q t := Keeps.bind h

/-- A contract that asks nothing of a request and lets it end in any way is kept. -/
theorem keeps_any {p : Prog Call Ans ε α} {Q : α → Trail Ans → Prop} (hmay : ∀ t c, C.may r t c)
    (hfails : ∀ e t, C.fails r e t) (hQ : ∀ a t, Q a t) (t : Trail Ans) : Keeps C r p Q t := by
  induction p generalizing t with
  | pure a => exact hQ a t
  | throw e => exact hfails e t
  | call c k ih => exact ⟨hmay t c, fun x _ => ih x (t ++ [⟨c, x⟩])⟩

theorem Keeps.ofExcept {x : Except ε α} {Q : α → Trail Ans → Prop} {t : Trail Ans} (hok : ∀ a, x = .ok a → Q a t)
    (hfails : ∀ e, x = .error e → C.fails r e t) : Keeps C r (Prog.ofExcept x) Q t := by
  cases x with
  | ok a => exact hok a rfl
  | error e => exact hfails e rfl

theorem Keeps.perform {c : Call} {Q : Ans c → Trail Ans → Prop} {t : Trail Ans} (hmay : C.may r t c)
    (hQ : ∀ x, C.valid t c x → Q x (t ++ [⟨c, x⟩])) : Keeps C r (Prog.perform c) Q t := ⟨hmay, hQ⟩

end Keeps

/-! ### Schedules -/

/-- The request ended as its post-condition or its contract says. -/
def Ended (C : Contract Ans ε ρ) (post : ρ → α → Trail Ans → Prop) (r : ρ) (t : Trail Ans) : Except ε α → Prop
  | .ok a => post r a t
  | .error e => C.fails r e t

/-- The shared state answers as the contract's programs count on, and keeps `I`. -/
structure Protects (C : Contract Ans ε ρ) (post : ρ → α → Trail Ans → Prop) (starts : ρ → Prop)
    (allowed : ι → Call → View ι Ans σ → Prop) (I : View ι Ans σ → Prop) : Prop where
  call : ∀ v i r c, I v → v.trails i ⊆ v.history → starts r → C.may r (v.trails i) c → allowed i c v →
    C.valid (v.trails i) c (exec c v.shared).1 ∧ I (v.extend i ⟨c, (exec c v.shared).1⟩ (exec c v.shared).2)
  finish : ∀ v i r result, I v → starts r → Ended C post r (v.trails i) result → I (v.clear i)

/-- The invariant of a world whose processes obey a contract. -/
structure Good (C : Contract Ans ε ρ) (post : ρ → α → Trail Ans → Prop) (starts : ρ → Prop)
    (I : View ι Ans σ → Prop) (w : World ι Ans ε α ρ σ) : Prop where
  shared : I w.view
  idle : ∀ i, w.running i = none → w.view.trails i = []
  running : ∀ i p, w.running i = some p → starts p.request ∧ Lawful C p.request (w.view.trails i) ∧
    Keeps C p.request p.rest (post p.request) (w.view.trails i)
  logged : ∀ i, w.view.trails i ⊆ w.view.history
  ended : ∀ o ∈ w.outcomes, starts o.request ∧ o.trail ⊆ w.view.history ∧ Lawful C o.request o.trail ∧
    Ended C post o.request o.trail o.result

variable {program exec}

private theorem update_some {γ : Type} {f : ι → Option γ} {i j : ι} {x y : γ}
    (h : Function.update f i (some x) j = some y) : j = i ∧ x = y ∨ j ≠ i ∧ f j = some y := by
  by_cases hij : j = i
  · subst hij
    rw [Function.update_self] at h
    exact .inl ⟨rfl, Option.some.inj h⟩
  · rw [Function.update_of_ne hij] at h
    exact .inr ⟨hij, h⟩

section Good

variable {C : Contract Ans ε ρ} {post : ρ → α → Trail Ans → Prop} {starts : ρ → Prop}
  {allowed : ι → Call → View ι Ans σ → Prop} {I : View ι Ans σ → Prop} {w : World ι Ans ε α ρ σ}

omit [DecidableEq ι] in
theorem good_idle {s : σ} (h : I ⟨s, fun _ => [], []⟩) : Good C post starts I (World.idle s : World ι Ans ε α ρ σ) where
  shared := h
  idle := fun _ _ => rfl
  running := nofun
  logged := fun _ => List.nil_subset _
  ended := by
    intro o ho
    cases ho

private theorem good_finish (hP : Protects exec C post starts allowed I) (h : Good C post starts I w) {i : ι}
    {p : Running Ans ε α ρ σ} (hstarts : starts p.request) (hlawful : Lawful C p.request (w.view.trails i))
    {result : Except ε α} (hended : Ended C post p.request (w.view.trails i) result) : Good C post starts I (w.finish i p result) where
  shared := hP.finish _ i _ result h.shared hstarts hended
  idle := by
    intro j hj
    by_cases hij : j = i
    · subst hij
      exact Function.update_self _ _ _
    · simp only [World.finish, View.clear, Function.update_of_ne hij] at hj ⊢
      exact h.idle j hj
  running := by
    intro j q hq
    by_cases hij : j = i
    · subst hij
      simp [World.finish] at hq
    · simp only [World.finish, View.clear, Function.update_of_ne hij] at hq ⊢
      exact h.running j q hq
  logged := by
    intro j
    by_cases hij : j = i
    · subst hij
      simp [World.finish, View.clear]
    · simp only [World.finish, View.clear, Function.update_of_ne hij]
      exact h.logged j
  ended := by
    intro o ho
    rcases List.mem_append.1 ho with ho | ho
    · exact h.ended o ho
    · obtain rfl := List.mem_singleton.1 ho
      exact ⟨hstarts, h.logged i, hlawful, hended⟩

private theorem good_call (hP : Protects exec C post starts allowed I) (h : Good C post starts I w) {i : ι}
    {p : Running Ans ε α ρ σ} (hp : w.running i = some p) {c : Call} {k : Ans c → Prog Call Ans ε α}
    (hrest : p.rest = .call c k) (hallowed : allowed i c w.view) : Good C post starts I
      { w with
        view := w.view.extend i ⟨c, (exec c w.view.shared).1⟩ (exec c w.view.shared).2
        running := Function.update w.running i (some { p with rest := k (exec c w.view.shared).1 }) } := by
  obtain ⟨hstarts, hlawful, hkeeps⟩ := h.running i p hp
  rw [hrest] at hkeeps
  obtain ⟨hvalid, hshared⟩ := hP.call w.view i p.request c h.shared (h.logged i) hstarts hkeeps.1 hallowed
  constructor
  · exact hshared
  · intro j hj
    by_cases hij : j = i
    · subst hij
      simp at hj
    · simp only [View.extend, Function.update_of_ne hij] at hj ⊢
      exact h.idle j hj
  · intro j q hq
    rcases update_some hq with ⟨rfl, rfl⟩ | ⟨hij, hq⟩
    · simp only [View.extend, Function.update_self]
      exact ⟨hstarts, hlawful.extend hkeeps.1 hvalid, hkeeps.2 _ hvalid⟩
    · simp only [View.extend, Function.update_of_ne hij]
      exact h.running j q hq
  · intro j
    by_cases hij : j = i
    · subst hij
      simp only [View.extend, Function.update_self]
      exact List.append_subset.2 ⟨fun e he => List.mem_append_left _ (h.logged j he),
        fun e he => List.mem_append_right _ he⟩
    · simp only [View.extend, Function.update_of_ne hij]
      exact fun e he => List.mem_append_left _ (h.logged j he)
  · intro o ho
    obtain ⟨hs, hsub, hrest⟩ := h.ended o ho
    exact ⟨hs, fun e he => List.mem_append_left _ (hsub he), hrest⟩

/-- Every action that obeys keeps a world good. -/
theorem good_act (hP : Protects exec C post starts allowed I)
    (hprogram : ∀ r, starts r → Keeps C r (program r) (post r) []) {a : Action ι ρ} (hobeys : Obeys starts allowed w a)
    (h : Good C post starts I w) : Good C post starts I (act program exec w a) := by
  cases a with
  | start i r =>
    simp only [act]
    cases hrun : w.running i with
    | some p => exact h
    | none =>
      refine ⟨h.shared, ?_, ?_, h.logged, h.ended⟩
      · intro j hj
        by_cases hij : j = i
        · subst hij
          exact h.idle j hrun
        · exact h.idle j (by simpa [Function.update_of_ne hij] using hj)
      · intro j q hq
        rcases update_some hq with ⟨rfl, rfl⟩ | ⟨-, hq⟩
        · simp only [h.idle j hrun]
          exact ⟨hobeys, lawful_nil, hprogram r hobeys⟩
        · exact h.running j q hq
  | advance i =>
    simp only [act]
    cases hrun : w.running i with
    | none => exact h
    | some p =>
      simp only
      obtain ⟨hstarts, hlawful, hkeeps⟩ := h.running i p hrun
      cases hrest : p.rest with
      | pure a =>
        rw [hrest] at hkeeps
        have hended : Ended C post p.request (w.view.trails i) (.ok a) := hkeeps
        exact good_finish hP h hstarts hlawful hended
      | throw e =>
        rw [hrest] at hkeeps
        have hended : Ended C post p.request (w.view.trails i) (.error e) := hkeeps
        exact good_finish hP h hstarts hlawful hended
      | call c k => exact good_call hP h hrun hrest (hobeys p c k hrun hrest)

/-- Programs that keep a contract, over a state that protects it: the invariant and the contract hold in every world
that a permitted schedule leads to. -/
theorem invariant (hP : Protects exec C post starts allowed I)
    (hprogram : ∀ r, starts r → Keeps C r (program r) (post r) []) (h : Good C post starts I w)
    {as : List (Action ι ρ)} (hpermitted : Permitted program exec starts allowed w as) :
    Good C post starts I (after program exec w as) :=
  Run.invariant_along (step program exec) (I := Good C post starts I)
    (fun _ _ hobeys hw => good_act hP hprogram hobeys hw) h hpermitted

end Good

/-! ### The order of states -/

section Order

variable {G : σ → σ → Prop} {w : World ι Ans ε α ρ σ}

theorem shared_act (hrefl : ∀ s, G s s) (hstep : ∀ c s, G s (exec c s).2) (w : World ι Ans ε α ρ σ) (a : Action ι ρ) :
    G w.view.shared (act program exec w a).view.shared := by
  cases a with
  | start i r =>
    simp only [act]
    split <;> exact hrefl _
  | advance i =>
    simp only [act]
    split
    · exact hrefl _
    · split
      · exact hrefl _
      · exact hrefl _
      · exact hstep _ _

/-- A preorder that every call advances relates the shared states of a schedule. -/
theorem shared_after (hrefl : ∀ s, G s s) (htrans : ∀ {a b c}, G a b → G b c → G a c)
    (hstep : ∀ c s, G s (exec c s).2) (w : World ι Ans ε α ρ σ) (as : List (Action ι ρ)) :
    G w.view.shared (after program exec w as).view.shared :=
  Run.related (step program exec) (I := fun _ => True) (R := fun w w' => G w.view.shared w'.view.shared)
    (fun w => hrefl w.view.shared) (fun h h' => htrans h h') (fun _ _ _ => trivial)
    (fun w a _ => shared_act hrefl hstep w a) (s := w) trivial as

/-- No call is forgotten. -/
theorem history_after (w : World ι Ans ε α ρ σ) (as : List (Action ι ρ)) :
    w.view.history <+: (after program exec w as).view.history := by
  refine Run.related (step program exec) (I := fun _ => True) (R := fun w w' => w.view.history <+: w'.view.history)
    (fun _ => List.prefix_rfl) (fun h h' => h.trans h') (fun _ _ _ => trivial) ?_ (s := w) trivial as
  intro w a _
  cases a with
  | start i r =>
    simp only [step, act]
    split <;> exact List.prefix_rfl
  | advance i =>
    simp only [step, act]
    split
    · exact List.prefix_rfl
    · split
      · exact List.prefix_rfl
      · exact List.prefix_rfl
      · exact List.prefix_append _ _

/-- The answer was given at a moment between `s` and `s'`. -/
def Between (exec : (c : Call) → σ → Ans c × σ) (G : σ → σ → Prop) (s : σ) (e : Σ c, Ans c) (s' : σ) : Prop :=
  ∃ m, G s m ∧ (exec e.1 m).1 = e.2 ∧ G (exec e.1 m).2 s'

/-- Each answer was given between the start of its request and its end, or now. -/
structure Timely (exec : (c : Call) → σ → Ans c × σ) (G : σ → σ → Prop) (w : World ι Ans ε α ρ σ) : Prop where
  idle : ∀ i, w.running i = none → w.view.trails i = []
  running : ∀ i p, w.running i = some p → G p.start w.view.shared ∧
    ∀ e ∈ w.view.trails i, Between exec G p.start e w.view.shared
  ended : ∀ o ∈ w.outcomes, ∀ e ∈ o.trail, Between exec G o.start e o.finish

private theorem timely_act (hrefl : ∀ s, G s s) (htrans : ∀ {a b c}, G a b → G b c → G a c)
    (hstep : ∀ c s, G s (exec c s).2) (a : Action ι ρ) (h : Timely exec G w) :
    Timely exec G (act program exec w a) := by
  have hfinish : ∀ i p result, w.running i = some p → Timely exec G (w.finish i p result) := by
    intro i p result hp
    constructor
    · intro j hj
      by_cases hij : j = i
      · subst hij
        exact Function.update_self _ _ _
      · simp only [World.finish, View.clear, Function.update_of_ne hij] at hj ⊢
        exact h.idle j hj
    · intro j q hq
      by_cases hij : j = i
      · subst hij
        simp [World.finish] at hq
      · simp only [World.finish, View.clear, Function.update_of_ne hij] at hq ⊢
        exact h.running j q hq
    · intro o ho
      rcases List.mem_append.1 ho with ho | ho
      · exact h.ended o ho
      · obtain rfl := List.mem_singleton.1 ho
        exact (h.running i p hp).2
  cases a with
  | start i r =>
    simp only [act]
    cases hrun : w.running i with
    | some p => exact h
    | none =>
      refine ⟨?_, ?_, h.ended⟩
      · intro j hj
        by_cases hij : j = i
        · subst hij
          exact h.idle j hrun
        · exact h.idle j (by simpa [Function.update_of_ne hij] using hj)
      · intro j q hq
        rcases update_some hq with ⟨rfl, rfl⟩ | ⟨-, hq⟩
        · simp only [h.idle j hrun]
          exact ⟨hrefl _, by simp⟩
        · exact h.running j q hq
  | advance i =>
    simp only [act]
    cases hrun : w.running i with
    | none => exact h
    | some p =>
      simp only
      cases p.rest with
      | pure a => exact hfinish i p _ hrun
      | throw e => exact hfinish i p _ hrun
      | call c k =>
        have hnow := hstep c w.view.shared
        -- what was answered before now was answered before the next state
        have hlater : ∀ j q, w.running j = some q → G q.start (exec c w.view.shared).2 ∧
            ∀ e ∈ w.view.trails j, Between exec G q.start e (exec c w.view.shared).2 := by
          intro j q hq
          obtain ⟨hG, hbetween⟩ := h.running j q hq
          refine ⟨htrans hG hnow, ?_⟩
          intro e he
          obtain ⟨m, hm, hans, hafter⟩ := hbetween e he
          exact ⟨m, hm, hans, htrans hafter hnow⟩
        refine ⟨?_, ?_, h.ended⟩
        · intro j hj
          by_cases hij : j = i
          · subst hij
            simp at hj
          · simp only [View.extend, Function.update_of_ne hij] at hj ⊢
            exact h.idle j hj
        · intro j q hq
          rcases update_some hq with ⟨rfl, rfl⟩ | ⟨hij, hq⟩
          · obtain ⟨hG, hbetween⟩ := hlater j p hrun
            simp only [View.extend, Function.update_self]
            refine ⟨hG, ?_⟩
            intro e he
            rcases List.mem_append.1 he with he | he
            · exact hbetween e he
            · obtain rfl := List.mem_singleton.1 he
              exact ⟨w.view.shared, (h.running j p hrun).1, rfl, hrefl _⟩
          · simp only [View.extend, Function.update_of_ne hij]
            exact hlater j q hq

/-- Every answer in the trail of an outcome was given during its request. -/
theorem answered_during (hrefl : ∀ s, G s s) (htrans : ∀ {a b c}, G a b → G b c → G a c)
    (hstep : ∀ c s, G s (exec c s).2) {s : σ} {as : List (Action ι ρ)} {o : Outcome ι Ans ε α ρ σ}
    (ho : o ∈ (after program exec (World.idle s) as).outcomes) {e : Σ c, Ans c} (he : e ∈ o.trail) :
    Between exec G o.start e o.finish := by
  have hidle : Timely exec G (World.idle s : World ι Ans ε α ρ σ) := by
    refine ⟨fun _ _ => rfl, nofun, ?_⟩
    intro o ho
    cases ho
  have htimely := Run.invariant (step program exec) (I := Timely exec G)
    (fun w a hw => timely_act hrefl htrans hstep a hw) hidle as
  exact htimely.ended o ho e he

end Order

/-- Each request found the state that the schedule had led to when it started. -/
theorem start_found {s : σ} (as : List (Action ι ρ)) :
    let w : List (Action ι ρ) → World ι Ans ε α ρ σ := after program exec (World.idle s)
    (∀ i p, (w as).running i = some p →
      ∃ pre post, as = pre ++ .start i p.request :: post ∧ p.start = (w pre).view.shared) ∧
    ∀ o ∈ (w as).outcomes,
      ∃ pre post, as = pre ++ .start o.process o.request :: post ∧ o.start = (w pre).view.shared := by
  intro w
  induction as using List.reverseRecOn with
  | nil =>
    refine ⟨nofun, ?_⟩
    intro o ho
    cases ho
  | append_singleton as a ih =>
    have hstep : w (as ++ [a]) = act program exec (w as) a := by
      simp only [w, after, Run.after_append]
      rfl
    -- what was started before is started still
    have hrunning : ∀ i p, (w as).running i = some p →
        ∃ pre post, as ++ [a] = pre ++ .start i p.request :: post ∧ p.start = (w pre).view.shared := by
      intro i p hp
      obtain ⟨pre, post, rfl, hstart⟩ := ih.1 i p hp
      exact ⟨pre, post ++ [a], by simp, hstart⟩
    have hended : ∀ o ∈ (w as).outcomes,
        ∃ pre post, as ++ [a] = pre ++ .start o.process o.request :: post ∧ o.start = (w pre).view.shared := by
      intro o ho
      obtain ⟨pre, post, rfl, hstart⟩ := ih.2 o ho
      exact ⟨pre, post ++ [a], by simp, hstart⟩
    have hfinish : ∀ i p result, (w as).running i = some p → ∀ o ∈ ((w as).finish i p result).outcomes,
        ∃ pre post, as ++ [a] = pre ++ .start o.process o.request :: post ∧ o.start = (w pre).view.shared := by
      intro i p result hp o ho
      rcases List.mem_append.1 ho with ho | ho
      · exact hended o ho
      · obtain rfl := List.mem_singleton.1 ho
        exact hrunning i p hp
    have hcleared : ∀ i p result j q, ((w as).finish i p result).running j = some q → (w as).running j = some q := by
      intro i p result j q hq
      by_cases hij : j = i
      · subst hij
        simp [World.finish] at hq
      · simpa only [World.finish, Function.update_of_ne hij] using hq
    rw [hstep]
    cases a with
    | start i r =>
      simp only [act]
      cases hrun : (w as).running i with
      | some p => exact ⟨hrunning, hended⟩
      | none =>
        refine ⟨?_, hended⟩
        intro j q hq
        rcases update_some hq with ⟨rfl, rfl⟩ | ⟨-, hq⟩
        · exact ⟨as, [], rfl, rfl⟩
        · exact hrunning j q hq
    | advance i =>
      simp only [act]
      cases hrun : (w as).running i with
      | none => exact ⟨hrunning, hended⟩
      | some p =>
        simp only
        split
        · exact ⟨fun j q hq => hrunning j q (hcleared i p _ j q hq), hfinish i p _ hrun⟩
        · exact ⟨fun j q hq => hrunning j q (hcleared i p _ j q hq), hfinish i p _ hrun⟩
        · refine ⟨?_, hended⟩
          intro j q hq
          rcases update_some hq with ⟨rfl, rfl⟩ | ⟨-, hq⟩
          · exact hrunning j p hrun
          · exact hrunning j q hq

/-- Each answer in the trail of a request was given by the state of a moment at which the process was at that request. -/
theorem answer_found {s : σ} (as : List (Action ι ρ)) :
    let w : List (Action ι ρ) → World ι Ans ε α ρ σ := after program exec (World.idle s)
    let Found := fun (as : List (Action ι ρ)) (i : ι) (r : ρ) (start : σ) (e : Σ c, Ans c) =>
      ∃ pre post p, as = pre ++ .advance i :: post ∧ (w pre).running i = some p ∧ p.request = r ∧ p.start = start ∧
        (exec e.1 (w pre).view.shared).1 = e.2
    (∀ i, (w as).running i = none → (w as).view.trails i = []) ∧
    (∀ i p, (w as).running i = some p → ∀ e ∈ (w as).view.trails i, Found as i p.request p.start e) ∧
    ∀ o ∈ (w as).outcomes, ∀ e ∈ o.trail, Found as o.process o.request o.start e := by
  intro w Found
  induction as using List.reverseRecOn with
  | nil =>
    refine ⟨fun _ _ => rfl, nofun, ?_⟩
    intro o ho
    cases ho
  | append_singleton as a ih =>
    obtain ⟨hidle, hrunning, hended⟩ := ih
    have hstep : w (as ++ [a]) = act program exec (w as) a := by
      simp only [w, after, Run.after_append]
      rfl
    -- what was found before is found still
    have hlater : ∀ {i r start e}, Found as i r start e → Found (as ++ [a]) i r start e := by
      rintro i r start e ⟨pre, post, p, rfl, hfound⟩
      exact ⟨pre, post ++ [a], p, by simp, hfound⟩
    have hfinish : ∀ i p result, (w as).running i = some p → let w' := (w as).finish i p result
        (∀ j, w'.running j = none → w'.view.trails j = []) ∧
        (∀ j q, w'.running j = some q → ∀ e ∈ w'.view.trails j, Found (as ++ [a]) j q.request q.start e) ∧
        ∀ o ∈ w'.outcomes, ∀ e ∈ o.trail, Found (as ++ [a]) o.process o.request o.start e := by
      intro i p result hp w'
      refine ⟨?_, ?_, ?_⟩
      · intro j hj
        by_cases hij : j = i
        · subst hij
          exact Function.update_self _ _ _
        · simp only [w', World.finish, View.clear, Function.update_of_ne hij] at hj ⊢
          exact hidle j hj
      · intro j q hq e he
        by_cases hij : j = i
        · subst hij
          simp [w', World.finish] at hq
        · simp only [w', World.finish, View.clear, Function.update_of_ne hij] at hq he
          exact hlater (hrunning j q hq e he)
      · intro o ho e he
        rcases List.mem_append.1 ho with ho | ho
        · exact hlater (hended o ho e he)
        · obtain rfl := List.mem_singleton.1 ho
          exact hlater (hrunning i p hp e he)
    rw [hstep]
    cases a with
    | start i r =>
      simp only [act]
      cases hrun : (w as).running i with
      | some p => exact ⟨hidle, fun j q hq e he => hlater (hrunning j q hq e he), fun o ho e he => hlater (hended o ho e he)⟩
      | none =>
        refine ⟨?_, ?_, fun o ho e he => hlater (hended o ho e he)⟩
        · intro j hj
          by_cases hij : j = i
          · subst hij
            exact hidle j hrun
          · exact hidle j (by simpa [Function.update_of_ne hij] using hj)
        · intro j q hq e he
          rcases update_some hq with ⟨rfl, rfl⟩ | ⟨-, hq⟩
          · rw [hidle j hrun] at he
            cases he
          · exact hlater (hrunning j q hq e he)
    | advance i =>
      simp only [act]
      cases hrun : (w as).running i with
      | none => exact ⟨hidle, fun j q hq e he => hlater (hrunning j q hq e he), fun o ho e he => hlater (hended o ho e he)⟩
      | some p =>
        simp only
        split
        · exact hfinish i p _ hrun
        · exact hfinish i p _ hrun
        · refine ⟨?_, ?_, fun o ho e he => hlater (hended o ho e he)⟩
          · intro j hj
            by_cases hij : j = i
            · subst hij
              simp at hj
            · simp only [View.extend, Function.update_of_ne hij] at hj ⊢
              exact hidle j hj
          · intro j q hq e he
            rcases update_some hq with ⟨rfl, rfl⟩ | ⟨hij, hq⟩
            · simp only [View.extend, Function.update_self] at he
              rcases List.mem_append.1 he with he | he
              · exact hlater (hrunning j p hrun e he)
              · -- the call of this moment
                obtain rfl := List.mem_singleton.1 he
                exact ⟨as, [], p, rfl, hrun, rfl, rfl, rfl⟩
            · simp only [View.extend, Function.update_of_ne hij] at he
              exact hlater (hrunning j q hq e he)

/-! ### Single processes -/

variable (program exec) in
/-- A process makes its next call: the others stay where they are. -/
theorem advance_call {w : World ι Ans ε α ρ σ} {i : ι} {r : ρ} {s : σ} {c : Call} {k : Ans c → Prog Call Ans ε α}
    (hp : w.running i = some ⟨r, s, .call c k⟩) :
    (act program exec w (.advance i)).view.shared = (exec c w.view.shared).2 ∧
      (act program exec w (.advance i)).running i = some ⟨r, s, k (exec c w.view.shared).1⟩ ∧
      ∀ j, j ≠ i → (act program exec w (.advance i)).running j = w.running j := by
  have hact : act program exec w (.advance i) =
      { w with
        view := w.view.extend i ⟨c, (exec c w.view.shared).1⟩ (exec c w.view.shared).2
        running := Function.update w.running i (some ⟨r, s, k (exec c w.view.shared).1⟩) } := by
    simp only [act, hp]
  rw [hact]
  exact ⟨rfl, Function.update_self _ _ _, fun j hj => Function.update_of_ne hj _ _⟩

variable (program exec) in
/-- A process runs the first part of its program while the others stay where they are. -/
theorem advance_bind {w : World ι Ans ε α ρ σ} {i : ι} {r : ρ} {s : σ} {p : Prog Call Ans ε β}
    {f : β → Prog Call Ans ε α} (hp : w.running i = some ⟨r, s, p >>= f⟩) {b : β} {s' : σ}
    (hrun : p.run exec w.view.shared = (.ok b, s')) :
    ∃ n, (after program exec w (List.replicate n (.advance i))).view.shared = s' ∧
      (after program exec w (List.replicate n (.advance i))).running i = some ⟨r, s, f b⟩ ∧
      ∀ j, j ≠ i → (after program exec w (List.replicate n (.advance i))).running j = w.running j := by
  induction p generalizing w with
  | pure a =>
    obtain ⟨hb, rfl⟩ := Prod.mk.inj hrun
    obtain rfl := Except.ok.inj hb
    exact ⟨0, rfl, hp, fun _ _ => rfl⟩
  | throw e => cases (Prod.mk.inj hrun).1
  | call c k ih =>
    obtain ⟨hshared, hrunning, hothers⟩ := advance_call program exec hp
    obtain ⟨n, hn, hrest, hstay⟩ := ih _ hrunning (by rw [hshared]; exact hrun)
    refine ⟨n + 1, ?_⟩
    rw [List.replicate_succ, after, Run.after_cons]
    exact ⟨hn, hrest, fun j hj => (hstay j hj).trans (hothers j hj)⟩

/-- A step of one process leaves the trails of the others alone. -/
theorem trails_advance {w : World ι Ans ε α ρ σ} {i j : ι} (hij : j ≠ i) :
    (act program exec w (.advance i)).view.trails j = w.view.trails j := by
  simp only [act]
  split
  · rfl
  · split
    · exact Function.update_of_ne hij _ _
    · exact Function.update_of_ne hij _ _
    · exact Function.update_of_ne hij _ _

variable (program exec) in
/-- A process that is left alone to the end does what its program does when it runs alone. -/
theorem advance_alone {w : World ι Ans ε α ρ σ} {i : ι} {p : Running Ans ε α ρ σ} (hp : w.running i = some p) :
    ∃ n t, after program exec w (List.replicate n (.advance i)) =
      { view := { shared := (p.rest.run exec w.view.shared).2, trails := Function.update w.view.trails i [],
                  history := w.view.history ++ t }
        running := Function.update w.running i none
        outcomes := w.outcomes ++ [⟨i, p.request, p.start, w.view.trails i ++ t,
          (p.rest.run exec w.view.shared).1, (p.rest.run exec w.view.shared).2⟩] } := by
  obtain ⟨r, s, rest⟩ := p
  induction rest generalizing w with
  | pure a =>
    refine ⟨1, [], ?_⟩
    rw [List.replicate_one, after, Run.after_cons, Run.after_nil]
    simp [step, act, hp, World.finish, View.clear, Prog.run]
  | throw e =>
    refine ⟨1, [], ?_⟩
    rw [List.replicate_one, after, Run.after_cons, Run.after_nil]
    simp [step, act, hp, World.finish, View.clear, Prog.run]
  | call c k ih =>
    have hstep : act program exec w (.advance i) =
        { w with
          view := w.view.extend i ⟨c, (exec c w.view.shared).1⟩ (exec c w.view.shared).2
          running := Function.update w.running i (some ⟨r, s, k (exec c w.view.shared).1⟩) } := by
      simp only [act, hp]
    obtain ⟨n, t, hn⟩ := ih (exec c w.view.shared).1 (w := act program exec w (.advance i)) (by rw [hstep]; simp)
    refine ⟨n + 1, ⟨c, (exec c w.view.shared).1⟩ :: t, ?_⟩
    rw [List.replicate_succ, after, Run.after_cons]
    refine hn.trans ?_
    rw [hstep]
    simp [View.extend, Prog.run]

variable (program exec) in
/-- Every request can be brought to its end. -/
theorem ends_alone {w : World ι Ans ε α ρ σ} {i : ι} {p : Running Ans ε α ρ σ} (hp : w.running i = some p) :
    ∃ n, ∃ o ∈ (after program exec w (List.replicate n (.advance i))).outcomes, o.process = i ∧ o.request = p.request ∧
      o.start = p.start ∧ o.result = (p.rest.run exec w.view.shared).1 := by
  obtain ⟨n, t, hn⟩ := advance_alone program exec hp
  refine ⟨n, ?_⟩
  rw [hn]
  exact ⟨_, List.mem_append_right _ (List.mem_singleton_self _), rfl, rfl, rfl, rfl⟩

end Interleaving

import CapsuleAnchor.Runs
import CapsuleAnchor.Submitters

/-!
# The sliding-window limiters (`anchoring/router.py`)

A call is allowed when fewer than `max` calls of its key were allowed in the window before it.  Times are the readings of
the monotonic clock, as exact rationals; a call holds the lock of the limiter throughout.

`Kept` is what the limiter keeps of the allowed calls of a key: those that the next call can still meet in its window.
`sliding_window_exact` says what a call is answered, `submitter_budget` that each enrolled `log_id` has a limiter of its
own.
-/

namespace CapsuleAnchor

structure SlidingWindowLimiter (K : Type) where
  max : Nat
  window : ℚ
  /-- The times of the allowed calls of a key that have not been trimmed; a key that was never seen has none. -/
  windows : K → List ℚ := fun _ => []

namespace SlidingWindowLimiter

variable {K : Type} [DecidableEq K]

/-- `is_allowed`. -/
def isAllowed (limiter : SlidingWindowLimiter K) (key : K) (now : ℚ) : Bool × SlidingWindowLimiter K :=
  let cutoff := now - limiter.window
  let dq := (limiter.windows key).dropWhile fun t => decide (t < cutoff)
  if limiter.max ≤ dq.length then (false, { limiter with windows := Function.update limiter.windows key dq })
  else (true, { limiter with windows := Function.update limiter.windows key (dq ++ [now]) })

/-- A call: its key and the reading of the clock. -/
def call (limiter : SlidingWindowLimiter K) (c : K × ℚ) : Bool × SlidingWindowLimiter K := limiter.isAllowed c.1 c.2

abbrev CallEvent (K : Type) := Run.Event (SlidingWindowLimiter K) (K × ℚ) Bool

/-- The times of the allowed calls of a key. -/
def allowed (key : K) (es : List (CallEvent K)) : List ℚ :=
  es.filterMap fun e => if e.request.1 = key ∧ e.reply = true then some e.request.2 else none

/-- How many of the times lie in a closed interval. -/
def within (times : List ℚ) (first last : ℚ) : Nat := times.countP fun t => decide (first ≤ t ∧ t ≤ last)

/-! ### Trimming -/

/-- What is left of the times of a key at a call. -/
def trimmed (limiter : SlidingWindowLimiter K) (key : K) (now : ℚ) : List ℚ :=
  (limiter.windows key).dropWhile fun t => decide (t < now - limiter.window)

theorem isAllowed_reply (limiter : SlidingWindowLimiter K) (key : K) (now : ℚ) :
    (limiter.isAllowed key now).1 = decide ((limiter.trimmed key now).length < limiter.max) := by
  unfold isAllowed trimmed
  simp only
  split
  · rename_i hfull
    exact (decide_eq_false (by omega)).symm
  · rename_i hfull
    exact (decide_eq_true (by omega)).symm

theorem isAllowed_limiter (limiter : SlidingWindowLimiter K) (key : K) (now : ℚ) :
    (limiter.isAllowed key now).2 = { limiter with
      windows := Function.update limiter.windows key (if (limiter.isAllowed key now).1 then
        limiter.trimmed key now ++ [now] else limiter.trimmed key now) } := by
  unfold isAllowed trimmed
  simp only
  split <;> rfl

@[simp] theorem max_isAllowed (limiter : SlidingWindowLimiter K) (key : K) (now : ℚ) :
    (limiter.isAllowed key now).2.max = limiter.max := by rw [isAllowed_limiter]

@[simp] theorem window_isAllowed (limiter : SlidingWindowLimiter K) (key : K) (now : ℚ) :
    (limiter.isAllowed key now).2.window = limiter.window := by rw [isAllowed_limiter]

/-- Trimming sorted times leaves those that are not too old. -/
private theorem dropWhile_sorted {times : List ℚ} (h : times.Pairwise (· ≤ ·)) (cutoff : ℚ) :
    (times.dropWhile fun t => decide (t < cutoff)) = times.filter fun t => decide (cutoff ≤ t) := by
  induction times with
  | nil => rfl
  | cons t rest ih =>
    obtain ⟨hle, hrest⟩ := List.pairwise_cons.1 h
    by_cases ht : t < cutoff
    · rw [List.dropWhile_cons_of_pos (by simpa using ht), List.filter_cons_of_neg (by simpa using ht), ih hrest]
    · have hkeep : ∀ x ∈ t :: rest, cutoff ≤ x := by
        intro x hx
        rcases List.mem_cons.1 hx with rfl | hx
        · exact not_lt.1 ht
        · exact (not_lt.1 ht).trans (hle x hx)
      rw [List.dropWhile_cons_of_neg (by simpa using ht), List.filter_eq_self.2 (by simpa using hkeep)]

/-- A later trim drops what an earlier one drops. -/
private theorem dropWhile_dropWhile {early late : ℚ} (h : early ≤ late) (times : List ℚ) :
    ((times.dropWhile fun t => decide (t < early)).dropWhile fun t => decide (t < late)) =
      times.dropWhile fun t => decide (t < late) := by
  induction times with
  | nil => rfl
  | cons t rest ih =>
    by_cases ht : t < early
    · rw [List.dropWhile_cons_of_pos (by simpa using ht), ih,
        List.dropWhile_cons_of_pos (by simpa using ht.trans_le h)]
    · rw [List.dropWhile_cons_of_neg (by simpa using ht)]

/-! ### What the limiter keeps -/

/-- The readings of the clock do not decrease. -/
def Timely (es : List (CallEvent K)) : Prop := es.Pairwise fun e e' => e.request.2 ≤ e'.request.2

/-- The limiter keeps a tail of the allowed calls of a key; the others lie before the window of every later call. -/
structure Kept (max : Nat) (window : ℚ) (key : K) (es : List (CallEvent K)) (limiter : SlidingWindowLimiter K) :
    Prop where
  max_eq : limiter.max = max
  window_eq : limiter.window = window
  tail : ∃ dropped, allowed key es = dropped ++ limiter.windows key ∧
    ∀ t ∈ dropped, ∀ now, (∀ e ∈ es, e.request.2 ≤ now) → t < now - window

theorem mem_allowed {key : K} {es : List (CallEvent K)} {t : ℚ} (h : t ∈ allowed key es) :
    ∃ e ∈ es, e.request.2 = t := by
  obtain ⟨e, he, hsome⟩ := List.mem_filterMap.1 h
  split at hsome
  · exact ⟨e, he, Option.some.inj hsome⟩
  · cases hsome

theorem allowed_append (key : K) (es es' : List (CallEvent K)) :
    allowed key (es ++ es') = allowed key es ++ allowed key es' := List.filterMap_append

theorem allowed_sorted {es : List (CallEvent K)} (h : Timely es) (key : K) : (allowed key es).Pairwise (· ≤ ·) := by
  refine List.Pairwise.filterMap _ ?_ h
  intro e e' hle t ht t' ht'
  split at ht
  · split at ht'
    · obtain rfl := Option.some.inj ht
      obtain rfl := Option.some.inj ht'
      exact hle
    · cases ht'
  · cases ht

/-- A call finds the allowed calls of its window. -/
theorem Kept.trimmed_eq {max : Nat} {window : ℚ} {key : K} {es : List (CallEvent K)}
    {limiter : SlidingWindowLimiter K} (h : Kept max window key es limiter) (htimely : Timely es) {now : ℚ}
    (hnow : ∀ e ∈ es, e.request.2 ≤ now) :
    limiter.trimmed key now = (allowed key es).filter fun t => decide (now - window ≤ t ∧ t ≤ now) := by
  obtain ⟨dropped, heq, hdropped⟩ := h.tail
  have hsorted := allowed_sorted htimely key
  have hle : ∀ t ∈ allowed key es, t ≤ now := by
    intro t ht
    obtain ⟨e, he, rfl⟩ := mem_allowed ht
    exact hnow e he
  rw [heq] at hsorted hle ⊢
  have hold : (dropped.filter fun t => decide (now - window ≤ t ∧ t ≤ now)) = [] := by
    rw [List.filter_eq_nil_iff]
    intro t ht hin
    have hlt := hdropped t ht now hnow
    simp only [decide_eq_true_eq] at hin
    linarith [hin.1]
  rw [List.filter_append, hold, List.nil_append, trimmed, h.window_eq,
    dropWhile_sorted (hsorted.sublist (List.sublist_append_right _ _))]
  refine List.filter_congr ?_
  intro t ht
  simp [hle t (List.mem_append_right _ ht)]

theorem Kept.step {max : Nat} {window : ℚ} {key : K} {es : List (CallEvent K)} {limiter : SlidingWindowLimiter K}
    (h : Kept max window key es limiter) (c : K × ℚ) (hnow : ∀ e ∈ es, e.request.2 ≤ c.2) :
    Kept max window key (es ++ [⟨limiter, c, (limiter.call c).1, (limiter.call c).2⟩]) (limiter.call c).2 := by
  obtain ⟨key', now⟩ := c
  obtain ⟨dropped, heq, hdropped⟩ := h.tail
  refine ⟨by rw [call, max_isAllowed, h.max_eq], by rw [call, window_isAllowed, h.window_eq], ?_⟩
  have hkeep : ∀ t ∈ dropped, ∀ now', (∀ e ∈ es ++ [⟨limiter, (key', now), (limiter.call (key', now)).1,
      (limiter.call (key', now)).2⟩], e.request.2 ≤ now') → t < now' - window :=
    fun t ht now' hnow' => hdropped t ht now' fun e he => hnow' e (List.mem_append_left _ he)
  rw [allowed_append, heq]
  by_cases hkey : key' = key
  · subst hkey
    -- what this call trims lies before its window, hence before every later one
    refine ⟨dropped ++ (limiter.windows key').takeWhile fun t => decide (t < now - limiter.window), ?_, ?_⟩
    · have hsplit : limiter.windows key' = (limiter.windows key').takeWhile (fun t => decide (t < now - limiter.window)) ++
          limiter.trimmed key' now := (List.takeWhile_append_dropWhile).symm
      rw [call, isAllowed_limiter]
      simp only [Function.update_self]
      cases (limiter.isAllowed key' now).1 with
      | false => simp [allowed, ← hsplit]
      | true =>
        rw [if_pos rfl, List.append_assoc dropped, List.append_assoc dropped, ← List.append_assoc (List.takeWhile _ _),
          ← hsplit]
        simp [allowed]
    · intro t ht now' hnow'
      rcases List.mem_append.1 ht with ht | ht
      · exact hkeep t ht now' hnow'
      · have hlt : t < now - limiter.window := by simpa using List.mem_takeWhile_imp ht
        have hle : now ≤ now' := hnow' _ (List.mem_append_right _ List.mem_cons_self)
        rw [h.window_eq] at hlt
        linarith
  · refine ⟨dropped, ?_, hkeep⟩
    rw [call, isAllowed_limiter]
    simp [allowed, hkey, Function.update_of_ne (Ne.symm hkey)]

section Runs

variable (max : Nat) (window : ℚ)

/-- A limiter before its first call. -/
def fresh : SlidingWindowLimiter K := { max, window }

theorem timely_trace {calls : List (K × ℚ)} (h : calls.Pairwise fun c c' => c.2 ≤ c'.2)
    (limiter : SlidingWindowLimiter K) : Timely (Run.trace call limiter calls) := by
  induction calls generalizing limiter with
  | nil => exact List.Pairwise.nil
  | cons c calls ih =>
    obtain ⟨hle, hcalls⟩ := List.pairwise_cons.1 h
    refine List.pairwise_cons.2 ⟨?_, ih hcalls _⟩
    intro e he
    obtain ⟨pre, post, rfl, -⟩ := Run.trace_split call he
    exact hle e.request (by simp)

theorem kept_after (calls : List (K × ℚ)) (key : K) : Timely (Run.trace call (fresh max window) calls) →
    Kept max window key (Run.trace call (fresh max window) calls) (Run.after call (fresh max window) calls) := by
  refine Run.history call (P := fun es limiter => Timely es → Kept max window key es limiter) ?_ ?_ calls
  · exact fun _ => ⟨rfl, rfl, [], rfl, nofun⟩
  · intro es limiter c ih htimely
    obtain ⟨hes, -, hle⟩ := List.pairwise_append.1 htimely
    exact (ih hes).step c fun e he => hle e he _ List.mem_cons_self

variable {max window} {calls : List (K × ℚ)}

/-- A call is allowed while its window has room. -/
theorem reply_eq (h : calls.Pairwise fun c c' => c.2 ≤ c'.2) {pre post : List (CallEvent K)} {e : CallEvent K}
    (hsplit : Run.trace call (fresh max window) calls = pre ++ e :: post) :
    e.reply = decide (within (allowed e.request.1 pre) (e.request.2 - window) e.request.2 < max) := by
  have htimely := timely_trace h (fresh max window)
  rw [hsplit] at htimely
  obtain ⟨hpre, -, hle⟩ := List.pairwise_append.1 htimely
  obtain ⟨before, _, -, rfl, hbefore⟩ := Run.trace_eq_append call hsplit
  obtain ⟨_, _, -, -, hreply, -⟩ := Run.trace_split call
    (show e ∈ Run.trace call (fresh max window) calls from hsplit ▸ List.mem_append_right _ List.mem_cons_self)
  have hkept := kept_after max window before e.request.1 hpre
  rw [← hbefore] at hkept
  rw [hreply, call, isAllowed_reply, hkept.trimmed_eq hpre fun e' he' => hle e' he' e List.mem_cons_self, hkept.max_eq,
    within, List.countP_eq_length_filter]

private theorem within_append (times times' : List ℚ) (first last : ℚ) :
    within (times ++ times') first last = within times first last + within times' first last := List.countP_append

/-- No closed interval of the length of the window has more than `max` allowed calls. -/
theorem within_le (h : calls.Pairwise fun c c' => c.2 ≤ c'.2) (key : K) (first : ℚ) :
    within (allowed key (Run.trace call (fresh max window) calls)) first (first + window) ≤ max := by
  induction calls using List.reverseRecOn with
  | nil => exact Nat.zero_le _
  | append_singleton before c ih =>
    obtain ⟨hbefore, -, hle⟩ := List.pairwise_append.1 h
    have hsplit := Run.trace_append call (fresh max window) before [c]
    have hreply := reply_eq h hsplit
    have hpast := ih hbefore
    rw [hsplit, allowed_append, within_append]
    obtain ⟨key', now⟩ := c
    simp only at hreply
    by_cases hnew : key' = key ∧ (call (Run.after call (fresh max window) before) (key', now)).1 = true
    · obtain ⟨rfl, hallowed⟩ := hnew
      have hone : allowed key' (Run.trace call (Run.after call (fresh max window) before) [(key', now)]) = [now] := by
        simp [allowed, Run.trace, hallowed]
      rw [hallowed] at hreply
      rw [hone]
      by_cases hin : first ≤ now ∧ now ≤ first + window
      · -- the calls before this one in the interval are in its window
        have hsub : within (allowed key' (Run.trace call (fresh max window) before)) first (first + window) ≤
            within (allowed key' (Run.trace call (fresh max window) before)) (now - window) now := by
          refine List.countP_mono_left ?_
          intro t ht hmem
          obtain ⟨e, he, rfl⟩ := mem_allowed ht
          obtain ⟨pre, post, rfl, -⟩ := Run.trace_split call he
          have hlt : e.request.2 ≤ now := hle e.request (by simp) _ List.mem_cons_self
          simp only [decide_eq_true_eq] at hmem ⊢
          exact ⟨by linarith [hmem.1, hin.2], hlt⟩
        have hroom : within (allowed key' (Run.trace call (fresh max window) before)) (now - window) now < max := by
          simpa using hreply.symm
        have hlast : within [now] first (first + window) = 1 := by simp [within, hin]
        omega
      · have hlast : within [now] first (first + window) = 0 := by simp [within, hin]
        omega
    · have hnone : allowed key (Run.trace call (Run.after call (fresh max window) before) [(key', now)]) = [] := by
        simp only [allowed, Run.trace, List.filterMap_cons, List.filterMap_nil, if_neg hnew]
      rw [hnone]
      simpa [within] using hpast

/-! ### Rejected calls -/

/-- From a time on, two limiters answer alike. -/
def Alike (now : ℚ) (a b : SlidingWindowLimiter K) : Prop :=
  a.max = b.max ∧ a.window = b.window ∧ ∀ key later, now ≤ later → a.trimmed key later = b.trimmed key later

theorem Alike.step {now : ℚ} {a b : SlidingWindowLimiter K} (h : Alike now a b) {c : K × ℚ} (hc : now ≤ c.2) :
    (b.call c).1 = (a.call c).1 ∧ Alike now (a.call c).2 (b.call c).2 := by
  obtain ⟨key, t⟩ := c
  obtain ⟨hmax, hwindow, htrimmed⟩ := h
  have hreply : (b.isAllowed key t).1 = (a.isAllowed key t).1 := by
    rw [isAllowed_reply, isAllowed_reply, hmax, htrimmed key t hc]
  refine ⟨hreply, ?_, ?_, ?_⟩
  · simp [call, hmax]
  · simp [call, hwindow]
  · intro key' later hlater
    rw [call, call, isAllowed_limiter, isAllowed_limiter, hreply, ← htrimmed key t hc]
    by_cases hkey : key' = key
    · subst hkey
      simp [trimmed, hwindow]
    · simpa [trimmed, Function.update_of_ne hkey] using htrimmed key' later hlater

/-- A rejected call leaves a limiter that answers as before. -/
theorem alike_of_rejected {limiter : SlidingWindowLimiter K} {c : K × ℚ} (h : (limiter.call c).1 = false) :
    Alike c.2 limiter (limiter.call c).2 := by
  obtain ⟨key, now⟩ := c
  refine ⟨by simp [call], by simp [call], ?_⟩
  intro key' later hlater
  have hrejected : (limiter.isAllowed key now).1 = false := h
  rw [call, isAllowed_limiter, hrejected]
  by_cases hkey : key' = key
  · subst hkey
    simp only [trimmed, Function.update_self, Bool.false_eq_true, if_false]
    exact (dropWhile_dropWhile (by linarith) _).symm
  · simp [trimmed, Function.update_of_ne hkey]

end Runs

/-- No closed interval of the length of the window has more than `max` allowed calls of a key; a call is rejected exactly
when its window has `max` of them; and without a rejected call every other one is answered as before. -/
theorem sliding_window_exact (max : Nat) (window : ℚ) {calls : List (K × ℚ)}
    (h : calls.Pairwise fun c c' => c.2 ≤ c'.2) :
    (∀ key first, within (allowed key (Run.trace call (fresh max window) calls)) first (first + window) ≤ max) ∧
    (∀ pre e post, Run.trace call (fresh max window) calls = pre ++ e :: post →
      (e.reply = false ↔ within (allowed e.request.1 pre) (e.request.2 - window) e.request.2 = max) ∧
      (e.reply = false →
        within (allowed e.request.1 (Run.trace call (fresh max window) calls)) (e.request.2 - window) e.request.2 = max)) ∧
    ∀ before c later, calls = before ++ c :: later → ((Run.after call (fresh max window) before).call c).1 = false →
      (Run.trace call (fresh max window) (before ++ later)).map Run.Event.reply =
        (Run.trace call (fresh max window) before).map Run.Event.reply ++
          (Run.trace call (Run.after call (fresh max window) (before ++ [c])) later).map Run.Event.reply := by
  have hbound : ∀ key first, within (allowed key (Run.trace call (fresh max window) calls)) first (first + window) ≤ max :=
    fun key first => within_le h key first
  refine ⟨hbound, ?_, ?_⟩
  · intro pre e post hsplit
    have hreply := reply_eq h hsplit
    have hall := hbound e.request.1 (e.request.2 - window)
    have hparts : within (allowed e.request.1 (Run.trace call (fresh max window) calls)) (e.request.2 - window)
        e.request.2 = within (allowed e.request.1 pre) (e.request.2 - window) e.request.2 +
          within (allowed e.request.1 (e :: post)) (e.request.2 - window) e.request.2 := by
      rw [hsplit, allowed_append, within_append]
    rw [sub_add_cancel, hparts] at hall
    rw [hparts, hreply, decide_eq_false_iff_not]
    constructor
    · omega
    · omega
  · rintro before c later rfl hrejected
    obtain ⟨-, hrest, -⟩ := List.pairwise_append.1 h
    have hlater := (List.pairwise_cons.1 hrest).1
    have halike := alike_of_rejected hrejected
    have htimely : ∀ e ∈ Run.trace call (Run.after call (fresh max window) before) later, c.2 ≤ e.request.2 := by
      intro e he
      obtain ⟨pre, post, rfl, -⟩ := Run.trace_split call he
      exact hlater e.request (by simp)
    obtain ⟨hreplies, -⟩ := Run.paired call (R := Alike c.2) (A := fun _ r => c.2 ≤ r.2)
      (fun _ _ _ hR hA => hR.step hA) halike htimely
    rw [Run.trace_append, List.map_append, Run.after_append, Run.after_cons, Run.after_nil, ← hreplies]

private def keyed : List (String × ℚ) := [("a", 0), ("b", 0), ("a", 30), ("a", 60), ("a", 61)]

/-- A call is rejected while the one at the other end of the closed window counts. -/
theorem sliding_window_exact_sample :
    (Run.trace call (fresh 2 60) keyed).map Run.Event.reply = [true, true, true, false, true] ∧
    within (allowed "a" (Run.trace call (fresh 2 60) keyed)) 1 61 ≤ 2 ∧
    within (allowed "a" (Run.trace call (fresh 2 60) keyed)) 0 60 = 2 ∧
    (Run.trace call (fresh 2 60) (keyed.take 3 ++ keyed.drop 4)).map Run.Event.reply = [true, true, true, true] := by
  have hsorted : keyed.Pairwise fun c c' => c.2 ≤ c'.2 := by decide +kernel
  obtain ⟨hbound, hrejected, hdropped⟩ := sliding_window_exact 2 60 hsorted
  have htrace : (Run.trace call (fresh 2 60) keyed).map Run.Event.reply = [true, true, true, false, true] := by
    decide +kernel
  refine ⟨htrace, ?_, ?_, ?_⟩
  · have hclosed := hbound "a" 1
    rwa [show (1 : ℚ) + 60 = 61 by norm_num] at hclosed
  · have hsplit := Run.trace_append call (fresh 2 60) (keyed.take 3) (keyed.drop 3)
    have hfull := (hrejected _ _ _ hsplit).2 (by decide +kernel)
    rwa [show (60 : ℚ) - 60 = 0 by norm_num] at hfull
  · rw [hdropped (keyed.take 3) ("a", 60) (keyed.drop 4) rfl (by decide +kernel)]
    decide +kernel

end SlidingWindowLimiter

/-! ### The limiters of the submitters -/

/-- `_SUBMITTER_LIMITERS`. -/
abbrev SubmitterLimiters := String → Option (SlidingWindowLimiter String)

/-- `_submitter_rate_limit_ok`. -/
def submitterRateLimitOk (limiters : SubmitterLimiters) (logId : String) (maxCalls : Nat) (now : ℚ) :
    Bool × SubmitterLimiters :=
  let limiter := (limiters logId).getD { max := maxCalls, window := 60 }
  ((limiter.isAllowed logId now).1, Function.update limiters logId (some (limiter.isAllowed logId now).2))

namespace SubmitterLimiters

/-- A request of an enrolled submitter. -/
def check (limiters : SubmitterLimiters) (c : SubmitterEntry × ℚ) : Bool × SubmitterLimiters :=
  submitterRateLimitOk limiters c.1.logId c.1.rateLimitPerMin c.2

/-- The limiter of an entry. -/
def limiterOf (limiters : SubmitterLimiters) (entry : SubmitterEntry) : SlidingWindowLimiter String :=
  (limiters entry.logId).getD (SlidingWindowLimiter.fresh entry.rateLimitPerMin 60)

theorem check_same (limiters : SubmitterLimiters) (entry : SubmitterEntry) (now : ℚ) :
    (limiters.check (entry, now)).1 = ((limiters.limiterOf entry).call (entry.logId, now)).1 ∧
      (limiters.check (entry, now)).2.limiterOf entry = ((limiters.limiterOf entry).call (entry.logId, now)).2 := by
  refine ⟨rfl, ?_⟩
  simp [check, submitterRateLimitOk, limiterOf, SlidingWindowLimiter.call, SlidingWindowLimiter.fresh]

theorem check_other (limiters : SubmitterLimiters) {entry other : SubmitterEntry} (h : other.logId ≠ entry.logId)
    (now : ℚ) : (limiters.check (other, now)).2.limiterOf entry = limiters.limiterOf entry := by
  simp [check, submitterRateLimitOk, limiterOf, Function.update_of_ne h.symm]

/-- The requests of an entry are answered by one limiter with its budget, whatever the other entries send. -/
theorem submitter_budget {allowlist : SubmitterAllowlist} {entry : SubmitterEntry} (hentry : entry ∈ allowlist.entries)
    {calls : List (SubmitterEntry × ℚ)} (hcalls : ∀ c ∈ calls, c.1 ∈ allowlist.entries) (limiters : SubmitterLimiters) :
    ((Run.trace check limiters calls).filter fun e => decide (e.request.1.logId = entry.logId)).map
        (fun e => (e.request.2, e.reply)) =
      (Run.trace SlidingWindowLimiter.call (limiters.limiterOf entry)
        ((calls.filter fun c => decide (c.1.logId = entry.logId)).map fun c => (entry.logId, c.2))).map
          fun e => (e.request.2, e.reply) := by
  induction calls generalizing limiters with
  | nil => rfl
  | cons c calls ih =>
    obtain ⟨other, now⟩ := c
    have hrest := ih (fun c hc => hcalls c (List.mem_cons_of_mem _ hc)) (limiters.check (other, now)).2
    by_cases hlog : other.logId = entry.logId
    · have hother : other ∈ allowlist.entries := hcalls (other, now) List.mem_cons_self
      obtain rfl := List.inj_on_of_nodup_map allowlist.distinct hother hentry hlog
      obtain ⟨hreply, hlimiter⟩ := check_same limiters other now
      rw [hlimiter] at hrest
      simp only [Run.trace, decide_true, List.filter_cons_of_pos, List.map_cons, hrest, hreply]
    · rw [check_other limiters hlog] at hrest
      simpa [Run.trace, hlog] using hrest

end SubmitterLimiters

end CapsuleAnchor

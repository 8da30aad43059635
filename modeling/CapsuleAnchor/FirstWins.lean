import Mathlib

/-!
# First come, first kept

Values are put under keys, and the first value under a key keeps it.  A later value with another content is a conflict,
and the conflicts are listed in the order in which they came.  Who holds a key is `List.lookup` of the puts so far;
`conflicts` is the list.

`lookup_concat` and `conflicts_concat` say what one more put does: an implementation that does the same at each put has
the same table and the same list after every sequence of puts.  `mem_conflicts` and `exists_conflict` say what the list
means.
-/

namespace FirstWins

variable {K V C : Type} [BEq K] [LawfulBEq K] [DecidableEq C]

/-- A value that came after another one under the same key. -/
structure Conflict (K V : Type) where
  key : K
  first : V
  later : V

section Lookup

variable (puts : List (K × V)) (k : K) (v : V)

theorem lookup_concat [DecidableEq K] (j : K) :
    (puts ++ [(k, v)]).lookup j = if j = k then some ((puts.lookup k).getD v) else puts.lookup j := by
  rw [List.lookup_append]
  by_cases hj : j = k
  · subst hj
    cases puts.lookup j <;> simp [List.lookup]
  · have hne : (j == k) = false := by simpa using hj
    simp [List.lookup, hne, hj]

variable {puts k v}

omit [LawfulBEq K] in
theorem lookup_mono {puts' : List (K × V)} (h : puts <+: puts') (hk : puts.lookup k = some v) :
    puts'.lookup k = some v := by
  obtain ⟨more, rfl⟩ := h
  rw [List.lookup_append, hk, Option.some_or]

theorem mem_of_lookup (h : puts.lookup k = some v) : (k, v) ∈ puts := by
  obtain ⟨l₁, l₂, rfl, -⟩ := List.lookup_eq_some_iff.1 h
  simp

theorem lookup_of_mem (h : (k, v) ∈ puts) : ∃ first, puts.lookup k = some first := by
  cases hk : puts.lookup k with
  | some first => exact ⟨first, rfl⟩
  | none =>
    have hne := List.lookup_eq_none_iff.1 hk (k, v) h
    simp at hne

end Lookup

variable (content : V → C)

/-- The conflict of a put with the value that holds its key. -/
def conflictWith (holder : Option V) (put : K × V) : Option (Conflict K V) :=
  match holder with
  | none => none
  | some first => if content first = content put.2 then none else some ⟨put.1, first, put.2⟩

/-- The conflicts among the puts. -/
def conflicts (puts : List (K × V)) : List (Conflict K V) :=
  puts.filterMap fun put => conflictWith content (puts.lookup put.1) put

/-- One more put conflicts with the value that holds its key, if with any. -/
theorem conflicts_concat (puts : List (K × V)) (k : K) (v : V) :
    conflicts content (puts ++ [(k, v)]) =
      conflicts content puts ++ (conflictWith content (puts.lookup k) (k, v)).toList := by
  have hold : puts.filterMap (fun put => conflictWith content ((puts ++ [(k, v)]).lookup put.1) put) =
      conflicts content puts := by
    refine List.filterMap_congr ?_
    intro put hput
    obtain ⟨first, hfirst⟩ := lookup_of_mem (show (put.1, put.2) ∈ puts from hput)
    rw [hfirst, lookup_mono (List.prefix_append _ _) hfirst]
  have hnew : conflictWith content ((puts ++ [(k, v)]).lookup k) (k, v) =
      conflictWith content (puts.lookup k) (k, v) := by
    cases hk : puts.lookup k with
    | none => simp [List.lookup_append, hk, List.lookup, conflictWith]
    | some first => rw [lookup_mono (List.prefix_append _ _) hk]
  rw [conflicts, List.filterMap_append, hold]
  simp only [List.filterMap_cons, List.filterMap_nil, hnew]
  cases conflictWith content (puts.lookup k) (k, v) <;> rfl

variable {content} {puts : List (K × V)}

omit [LawfulBEq K] in
/-- Each conflict names the holder of its key and a later put of another content, and each such put is listed. -/
theorem mem_conflicts {c : Conflict K V} : c ∈ conflicts content puts ↔
    puts.lookup c.key = some c.first ∧ (c.key, c.later) ∈ puts ∧ content c.first ≠ content c.later := by
  rw [conflicts, List.mem_filterMap]
  constructor
  · rintro ⟨⟨k, v⟩, hput, hc⟩
    unfold conflictWith at hc
    split at hc
    · cases hc
    · rename_i first hfirst
      split at hc
      · cases hc
      · rename_i hne
        obtain rfl := Option.some.inj hc
        exact ⟨hfirst, hput, hne⟩
  · rintro ⟨hfirst, hput, hne⟩
    refine ⟨(c.key, c.later), hput, ?_⟩
    simp only [conflictWith, hfirst, if_neg hne]

/-- A key is in conflict when two puts under it differ in content. -/
theorem exists_conflict {k : K} : (∃ c ∈ conflicts content puts, c.key = k) ↔
    ∃ v w, (k, v) ∈ puts ∧ (k, w) ∈ puts ∧ content v ≠ content w := by
  constructor
  · rintro ⟨c, hc, rfl⟩
    obtain ⟨hfirst, hlater, hne⟩ := mem_conflicts.1 hc
    exact ⟨c.first, c.later, mem_of_lookup hfirst, hlater, hne⟩
  · rintro ⟨v, w, hv, hw, hne⟩
    obtain ⟨first, hfirst⟩ := lookup_of_mem hv
    -- one of the two differs from the holder
    by_cases hfv : content first = content v
    · have hfw : content first ≠ content w := by rwa [hfv]
      exact ⟨⟨k, first, w⟩, mem_conflicts.2 ⟨hfirst, hw, hfw⟩, rfl⟩
    · exact ⟨⟨k, first, v⟩, mem_conflicts.2 ⟨hfirst, hv, hfv⟩, rfl⟩

end FirstWins

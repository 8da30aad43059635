import CapsuleAnchor.Statement

/-!
# Python strings and their canonical JSON

A Python `str` is a sequence of code points, surrogates included: `json.loads` returns such strings for escapes that pair
with nothing, and for bytes that encode surrogates.  `canonicalText` is `json.dumps(obj, sort_keys=True,
separators=(",", ":")).encode()` for flat objects with such strings; on strings without surrogates it is `canonical`.

`ensure_ascii=True` escapes a string one UTF-16 unit at a time (`escapeCodePoint_eq`), so two strings have the same text
exactly when they are the same in UTF-16 (`dumpsText_append_inj`): a pair of surrogates and the character it stands for
are written alike.
-/

namespace CapsuleAnchor

abbrev CodePoint := Fin 1114112

/-- A Python `str`. -/
abbrev Text := List CodePoint

instance : LawfulBEq Text := inferInstance

def charCodePoint (c : Char) : CodePoint := ⟨c.toNat, char_lt c⟩

/-- The string without surrogates `s`. -/
def text (s : String) : Text := s.toList.map charCodePoint

/-- No code point is a surrogate: the string is a Unicode text. -/
def Text.Scalar (t : Text) : Prop := ∀ c ∈ t, ¬ (55296 ≤ c.val ∧ c.val < 57344)

instance (t : Text) : Decidable t.Scalar := List.decidableBAll _ t

/-! ### UTF-16 -/

def utf16Units (c : CodePoint) : List Nat :=
  if c.val < 65536 then [c.val] else [55296 + (c.val - 65536) / 1024, 56320 + (c.val - 65536) % 1024]

/-- The UTF-16 code units of a string; a surrogate is its own. -/
def Text.utf16 (t : Text) : List Nat := t.flatMap utf16Units

private theorem utf16Units_lt {c : CodePoint} {u : Nat} (h : u ∈ utf16Units c) : u < 65536 := by
  have hc := c.isLt
  unfold utf16Units at h
  split at h
  · rw [List.mem_singleton.1 h]; omega
  · simp only [List.mem_cons, List.not_mem_nil, or_false] at h
    omega

theorem Text.utf16_lt {t : Text} {u : Nat} (h : u ∈ t.utf16) : u < 65536 := by
  obtain ⟨c, -, hc⟩ := List.mem_flatMap.1 h
  exact utf16Units_lt hc

/-- A Unicode text is fixed by its UTF-16 form. -/
theorem Text.utf16_inj : ∀ {a b : Text}, a.Scalar → b.Scalar → a.utf16 = b.utf16 → a = b
  | [], [], _, _, _ => rfl
  | [], c :: b, _, _, h => by
    simp only [Text.utf16, List.flatMap_nil, List.flatMap_cons, utf16Units] at h
    split at h <;> simp at h
  | c :: a, [], _, _, h => by
    simp only [Text.utf16, List.flatMap_nil, List.flatMap_cons, utf16Units] at h
    split at h <;> simp at h
  | c :: a, d :: b, ha, hb, h => by
    have hc := ha c List.mem_cons_self
    have hd := hb d List.mem_cons_self
    have hclt := c.isLt
    have hdlt := d.isLt
    have hrest : ∀ x ∈ a, ¬ (55296 ≤ x.val ∧ x.val < 57344) := fun x hx => ha x (List.mem_cons_of_mem _ hx)
    have hrest' : ∀ x ∈ b, ¬ (55296 ≤ x.val ∧ x.val < 57344) := fun x hx => hb x (List.mem_cons_of_mem _ hx)
    simp only [Text.utf16, List.flatMap_cons, utf16Units] at h
    -- a unit below the surrogates is a character, two surrogates are one
    by_cases h1 : c.val < 65536 <;> by_cases h2 : d.val < 65536
    · rw [if_pos h1, if_pos h2, List.singleton_append, List.singleton_append, List.cons.injEq] at h
      rw [Fin.ext h.1, Text.utf16_inj hrest hrest' h.2]
    · rw [if_pos h1, if_neg h2, List.singleton_append, List.cons_append, List.cons.injEq] at h
      omega
    · rw [if_neg h1, if_pos h2, List.singleton_append, List.cons_append, List.cons.injEq] at h
      omega
    · rw [if_neg h1, if_neg h2] at h
      simp only [List.cons_append, List.nil_append, List.cons.injEq] at h
      rw [Fin.ext (show c.val = d.val by omega), Text.utf16_inj hrest hrest' h.2.2]

theorem text_scalar (s : String) : (text s).Scalar := by
  intro c hc
  obtain ⟨x, -, rfl⟩ := List.mem_map.1 hc
  exact char_not_surrogate x

theorem text_inj {a b : String} (h : text a = text b) : a = b := by
  have hinj : Function.Injective charCodePoint := by
    intro x y hxy
    exact Char.toNat_inj.1 (Fin.mk.inj hxy)
  exact String.toList_inj.1 (List.map_injective_iff.2 hinj h)

/-! ### Escapes -/

/-- `json.encoder.py_encode_basestring_ascii`, one code point. -/
def escapeCodePoint (c : CodePoint) : Bytes :=
  if c.val = 34 then [92, 34]
  else if c.val = 92 then [92, 92]
  else if c.val = 10 then [92, 110]
  else if c.val = 13 then [92, 114]
  else if c.val = 9 then [92, 116]
  else if c.val = 12 then [92, 102]
  else if c.val = 8 then [92, 98]
  else if 32 ≤ c.val ∧ c.val ≤ 126 then [UInt8.ofNat c.val]
  else if c.val < 65536 then escapeUnit c.val
  else escapeUnit (55296 + (c.val - 65536) / 1024 % 1024) ++ escapeUnit (56320 + (c.val - 65536) % 1024)

def dumpsText (t : Text) : Bytes := 34 :: (t.flatMap escapeCodePoint ++ [34])

/-- The escape of one UTF-16 unit. -/
private def escapeUtf16 (u : Nat) : Bytes :=
  if u = 34 then [92, 34]
  else if u = 92 then [92, 92]
  else if u = 10 then [92, 110]
  else if u = 13 then [92, 114]
  else if u = 9 then [92, 116]
  else if u = 12 then [92, 102]
  else if u = 8 then [92, 98]
  else if 32 ≤ u ∧ u ≤ 126 then [UInt8.ofNat u]
  else escapeUnit u

private theorem escapeUtf16_of_gt {u : Nat} (h : 126 < u) : escapeUtf16 u = escapeUnit u := by
  rw [escapeUtf16, if_neg (by omega), if_neg (by omega), if_neg (by omega), if_neg (by omega), if_neg (by omega),
    if_neg (by omega), if_neg (by omega), if_neg (by omega)]

private theorem escapeCodePoint_eq (c : CodePoint) : escapeCodePoint c = (utf16Units c).flatMap escapeUtf16 := by
  have hc := c.isLt
  by_cases h : c.val < 65536
  · rw [utf16Units, if_pos h, List.flatMap_singleton, escapeCodePoint, escapeUtf16, if_pos h]
  · have hhigh : (c.val - 65536) / 1024 % 1024 = (c.val - 65536) / 1024 := by omega
    rw [utf16Units, if_neg h, escapeCodePoint, if_neg (by omega), if_neg (by omega), if_neg (by omega),
      if_neg (by omega), if_neg (by omega), if_neg (by omega), if_neg (by omega), if_neg (by omega), if_neg h, hhigh]
    simp only [List.flatMap_cons, List.flatMap_nil, List.append_nil]
    rw [escapeUtf16_of_gt (by omega), escapeUtf16_of_gt (by omega)]

private theorem flatMap_escapeCodePoint (t : Text) : t.flatMap escapeCodePoint = t.utf16.flatMap escapeUtf16 := by
  rw [Text.utf16, List.flatMap_assoc]
  congr
  funext c
  exact escapeCodePoint_eq c

/-- Reads back one escaped unit. -/
private def readUtf16 : Bytes → Option (Nat × Bytes)
  | [] => none
  | x :: s =>
    if x ≠ 92 then some (x.toNat, s)
    else match s with
      | [] => none
      | y :: s =>
        if y = 34 then some (34, s)
        else if y = 92 then some (92, s)
        else if y = 110 then some (10, s)
        else if y = 114 then some (13, s)
        else if y = 116 then some (9, s)
        else if y = 102 then some (12, s)
        else if y = 98 then some (8, s)
        else match s with
          | a :: b :: c :: d :: s => some (readUnit a b c d, s)
          | _ => none

private theorem readUtf16_escape {u : Nat} (h : u < 65536) (s : Bytes) :
    readUtf16 (escapeUtf16 u ++ s) = some (u, s) := by
  unfold escapeUtf16
  split
  · subst u; rfl
  split
  · subst u; rfl
  split
  · subst u; rfl
  split
  · subst u; rfl
  split
  · subst u; rfl
  split
  · subst u; rfl
  split
  · subst u; rfl
  split
  · rename_i h92 _ _ _ _ _ hprint
    have hbyte : (UInt8.ofNat u).toNat = u := by simp; omega
    have hne : UInt8.ofNat u ≠ 92 := by
      intro he
      apply h92
      rw [← hbyte, he]
      rfl
    rw [List.singleton_append, readUtf16.eq_def]
    simp only [hne, ne_eq, not_false_eq_true, if_true, hbyte]
  · simp only [escapeUnit, hex4, List.cons_append, List.nil_append, readUtf16, readUnit_hex4 h]
    rw [if_neg (by decide), if_neg (by decide), if_neg (by decide), if_neg (by decide), if_neg (by decide),
      if_neg (by decide), if_neg (by decide), if_neg (by decide)]

private theorem escapeUtf16_head {u : Nat} (h : u < 65536) : ∃ b l, escapeUtf16 u = b :: l ∧ b ≠ 34 := by
  unfold escapeUtf16
  split
  · exact ⟨_, _, rfl, by decide⟩
  split
  · exact ⟨_, _, rfl, by decide⟩
  split
  · exact ⟨_, _, rfl, by decide⟩
  split
  · exact ⟨_, _, rfl, by decide⟩
  split
  · exact ⟨_, _, rfl, by decide⟩
  split
  · exact ⟨_, _, rfl, by decide⟩
  split
  · exact ⟨_, _, rfl, by decide⟩
  split
  · rename_i h34 _ _ _ _ _ _ hprint
    refine ⟨_, _, rfl, ?_⟩
    intro he
    have hbyte : (UInt8.ofNat u).toNat = u := by simp; omega
    rw [he] at hbyte
    exact h34 hbyte.symm
  · exact ⟨_, _, rfl, by decide⟩

private theorem escapedUnits_inj : ∀ {a b : List Nat} {s t : Bytes}, (∀ u ∈ a, u < 65536) → (∀ u ∈ b, u < 65536) →
    a.flatMap escapeUtf16 ++ 34 :: s = b.flatMap escapeUtf16 ++ 34 :: t → a = b ∧ s = t
  | [], [], _, _, _, _, h => ⟨rfl, by simpa using h⟩
  | [], v :: b, s, t, _, hb, h => by
    obtain ⟨x, l, hx, hne⟩ := escapeUtf16_head (hb v List.mem_cons_self)
    simp only [List.flatMap_nil, List.nil_append, List.flatMap_cons, hx, List.cons_append, List.cons.injEq] at h
    exact absurd h.1.symm hne
  | u :: a, [], s, t, ha, _, h => by
    obtain ⟨x, l, hx, hne⟩ := escapeUtf16_head (ha u List.mem_cons_self)
    simp only [List.flatMap_nil, List.nil_append, List.flatMap_cons, hx, List.cons_append, List.cons.injEq] at h
    exact absurd h.1 hne
  | u :: a, v :: b, s, t, ha, hb, h => by
    simp only [List.flatMap_cons, List.append_assoc] at h
    have hread := congrArg readUtf16 h
    rw [readUtf16_escape (ha u List.mem_cons_self), readUtf16_escape (hb v List.mem_cons_self)] at hread
    simp only [Option.some.injEq, Prod.mk.injEq] at hread
    obtain ⟨rfl, rfl⟩ := escapedUnits_inj (fun x hx => ha x (List.mem_cons_of_mem _ hx))
      (fun x hx => hb x (List.mem_cons_of_mem _ hx)) hread.2
    exact ⟨by rw [hread.1], rfl⟩

theorem dumpsText_append_inj {a b : Text} {s t : Bytes} (h : dumpsText a ++ s = dumpsText b ++ t) :
    a.utf16 = b.utf16 ∧ s = t := by
  simp only [dumpsText, List.cons_append, List.append_assoc, List.nil_append, List.cons.injEq, true_and,
    flatMap_escapeCodePoint] at h
  exact escapedUnits_inj (fun _ => Text.utf16_lt) (fun _ => Text.utf16_lt) h

theorem dumpsText_congr {a b : Text} (h : a.utf16 = b.utf16) : dumpsText a = dumpsText b := by
  rw [dumpsText, dumpsText, flatMap_escapeCodePoint, flatMap_escapeCodePoint, h]

/-- On a string without surrogates this is the escaping of `dumpsStr`. -/
theorem dumpsText_text (s : String) : dumpsText (text s) = dumpsStr s := by
  have hchar : ∀ c : Char, escapeCodePoint (charCodePoint c) = escapeChar c := by
    intro c
    have hcode : ∀ (n : Nat) (d : Char), d.toNat = n → (c.toNat = n ↔ c = d) := by
      rintro n d rfl
      exact Char.toNat_inj
    simp only [escapeCodePoint, escapeChar, charCodePoint, hcode 34 '"' rfl, hcode 92 '\\' rfl, hcode 10 '\n' rfl,
      hcode 13 '\r' rfl, hcode 9 '\t' rfl]
    congr
  simp only [dumpsText, dumpsStr, text, List.flatMap_map, hchar]

/-! ### Objects -/

/-- The values of the objects that are signed. -/
inductive TextScalar
  | null
  | int (i : Int)
  | str (s : Text)

/-- A string or `None`. -/
def TextScalar.optStr : Option Text → TextScalar
  | none => .null
  | some s => .str s

def TextScalar.dumps : TextScalar → Bytes
  | .null => Scalar.null.dumps
  | .int i => (Scalar.int i).dumps
  | .str s => dumpsText s

/-- The same value, and for strings the same UTF-16. -/
def TextScalar.Same : TextScalar → TextScalar → Prop
  | .null, .null => True
  | .int i, .int j => i = j
  | .str s, .str t => s.utf16 = t.utf16
  | _, _ => False

def dumpsTextField (f : String × TextScalar) : Bytes := dumpsStr f.1 ++ 58 :: f.2.dumps

def dumpsTextFields : List (String × TextScalar) → Bytes
  | [] => [125]
  | [f] => dumpsTextField f ++ [125]
  | f :: g :: fs => dumpsTextField f ++ 44 :: dumpsTextFields (g :: fs)

/-- The order `sort_keys=True` sorts the items of an object by. -/
def textKeyLE (f g : String × TextScalar) : Prop := f.1 ≤ g.1

instance : DecidableRel textKeyLE := fun f g => inferInstanceAs (Decidable (f.1 ≤ g.1))

/-- `service._canonical`. -/
def canonicalText (obj : List (String × TextScalar)) : Bytes := 123 :: dumpsTextFields (obj.insertionSort textKeyLE)

/-- A value of the same kind whose strings are empty. -/
private def TextScalar.kind : TextScalar → Scalar
  | .null => .null
  | .int i => .int i
  | .str _ => .str ""

private theorem TextScalar.dumps_head (v : TextScalar) : ∃ b l, v.dumps = b :: l ∧ kindByte v.kind b := by
  cases v with
  | null => exact CapsuleAnchor.dumps_head .null
  | int i => exact CapsuleAnchor.dumps_head (.int i)
  | str s => exact ⟨_, _, rfl, rfl⟩

private theorem TextScalar.dumps_append_inj {v w : TextScalar} {x y : UInt8} {s t : Bytes} (hx : IsDelim x)
    (hy : IsDelim y) (h : v.dumps ++ x :: s = w.dumps ++ y :: t) : v.Same w ∧ x :: s = y :: t := by
  have hkind : ∃ b, kindByte v.kind b ∧ kindByte w.kind b := by
    obtain ⟨b, l, e, hb⟩ := v.dumps_head
    obtain ⟨c, l', e', hc⟩ := w.dumps_head
    rw [e, e', List.cons_append, List.cons_append, List.cons.injEq] at h
    exact ⟨b, hb, h.1 ▸ hc⟩
  obtain ⟨b, hv, hw⟩ := hkind
  have hunique := kindByte_unique hv hw
  cases v with
  | str a =>
    cases w with
    | str b => exact dumpsText_append_inj h
    | null => simp [TextScalar.kind] at hunique
    | int j => simp [TextScalar.kind] at hunique
  | null =>
    cases w with
    | null => exact ⟨trivial, (CapsuleAnchor.dumps_append_inj (v := .null) (w := .null) hx hy h).2⟩
    | str b => simp [TextScalar.kind] at hunique
    | int j => simp [TextScalar.kind] at hunique
  | int i =>
    cases w with
    | int j =>
      obtain ⟨hij, hrest⟩ := CapsuleAnchor.dumps_append_inj (v := .int i) (w := .int j) hx hy h
      exact ⟨Scalar.int.inj hij, hrest⟩
    | null => simp [TextScalar.kind] at hunique
    | str b => simp [TextScalar.kind] at hunique

/-- The same item. -/
def SameField (f g : String × TextScalar) : Prop := f.1 = g.1 ∧ f.2.Same g.2

private theorem dumpsTextField_append_inj {f g : String × TextScalar} {x y : UInt8} {s t : Bytes} (hx : IsDelim x)
    (hy : IsDelim y) (h : dumpsTextField f ++ x :: s = dumpsTextField g ++ y :: t) :
    SameField f g ∧ x :: s = y :: t := by
  simp only [dumpsTextField, List.append_assoc, List.cons_append] at h
  obtain ⟨hkey, h⟩ := dumpsStr_append_inj h
  obtain ⟨hvalue, hrest⟩ := TextScalar.dumps_append_inj hx hy (List.cons.inj h).2
  exact ⟨⟨hkey, hvalue⟩, hrest⟩

private theorem dumpsTextField_ne (f : String × TextScalar) (s : Bytes) : dumpsTextField f ++ s ≠ [125] := by
  simp [dumpsTextField, dumpsStr]

private theorem dumpsTextFields_inj : ∀ {fs gs : List (String × TextScalar)},
    dumpsTextFields fs = dumpsTextFields gs → List.Forall₂ SameField fs gs
  | [], [], _ => .nil
  | [], [g], h => (dumpsTextField_ne g _ h.symm).elim
  | [], g :: g' :: gs, h => (dumpsTextField_ne g _ h.symm).elim
  | [f], [], h => (dumpsTextField_ne f _ h).elim
  | f :: f' :: fs, [], h => (dumpsTextField_ne f _ h).elim
  | [f], [g], h => .cons (dumpsTextField_append_inj (.inr rfl) (.inr rfl) h).1 .nil
  | [f], g :: g' :: gs, h => by
    have := (dumpsTextField_append_inj (.inr rfl) (.inl rfl) h).2
    simp at this
  | f :: f' :: fs, [g], h => by
    have := (dumpsTextField_append_inj (.inl rfl) (.inr rfl) h).2
    simp at this
  | f :: f' :: fs, g :: g' :: gs, h => by
    obtain ⟨hfield, h'⟩ := dumpsTextField_append_inj (.inl rfl) (.inl rfl) h
    exact .cons hfield (dumpsTextFields_inj (List.cons.inj h').2)

private theorem mem_forall₂ {R : String × TextScalar → String × TextScalar → Prop} {fs gs : List (String × TextScalar)}
    (h : List.Forall₂ R fs gs) {f : String × TextScalar} (hf : f ∈ fs) : ∃ g ∈ gs, R f g := by
  induction h with
  | nil => cases hf
  | cons hfg _ ih =>
    rcases List.mem_cons.1 hf with rfl | hf
    · exact ⟨_, List.mem_cons_self, hfg⟩
    · obtain ⟨g, hg, hR⟩ := ih hf
      exact ⟨g, List.mem_cons_of_mem _ hg, hR⟩

/-- Every item of one of two objects with the same canonical bytes is an item of the other. -/
theorem canonicalText_mem {a b : List (String × TextScalar)} (h : canonicalText a = canonicalText b)
    {f : String × TextScalar} (hf : f ∈ a) : ∃ g ∈ b, SameField f g := by
  have hsorted := dumpsTextFields_inj (List.cons.inj h).2
  obtain ⟨g, hg, hfg⟩ := mem_forall₂ hsorted ((List.mem_insertionSort textKeyLE).2 hf)
  exact ⟨g, (List.mem_insertionSort textKeyLE).1 hg, hfg⟩

theorem TextScalar.Same.dumps_eq {v w : TextScalar} (h : v.Same w) : v.dumps = w.dumps := by
  cases v <;> cases w <;> simp only [TextScalar.Same] at h
  · rfl
  · rw [h]
  · exact dumpsText_congr h

private theorem dumpsTextFields_congr {fs gs : List (String × TextScalar)} (h : List.Forall₂ SameField fs gs) :
    dumpsTextFields fs = dumpsTextFields gs := by
  induction h with
  | nil => rfl
  | cons hfg hrest ih =>
    have hfield : ∀ {f g : String × TextScalar}, SameField f g → dumpsTextField f = dumpsTextField g := by
      intro f g hfg
      rw [dumpsTextField, dumpsTextField, hfg.1, hfg.2.dumps_eq]
    cases hrest with
    | nil => rw [dumpsTextFields, dumpsTextFields, hfield hfg]
    | cons hnext hrest => rw [dumpsTextFields, dumpsTextFields, hfield hfg, ih]

private theorem orderedInsert_same {f g : String × TextScalar} (hfg : SameField f g)
    {fs gs : List (String × TextScalar)} (h : List.Forall₂ SameField fs gs) :
    List.Forall₂ SameField (fs.orderedInsert textKeyLE f) (gs.orderedInsert textKeyLE g) := by
  induction h with
  | nil => exact .cons hfg .nil
  | @cons f' g' fs gs hnext hrest ih =>
    have hle : textKeyLE f f' ↔ textKeyLE g g' := by
      rw [textKeyLE, textKeyLE, hfg.1, hnext.1]
    by_cases hfirst : textKeyLE f f'
    · rw [List.orderedInsert_cons_of_le _ _ hfirst, List.orderedInsert_cons_of_le _ _ (hle.1 hfirst)]
      exact .cons hfg (.cons hnext hrest)
    · rw [List.orderedInsert_cons, List.orderedInsert_cons, if_neg hfirst, if_neg (fun h => hfirst (hle.2 h))]
      exact .cons hnext ih

/-- Objects with the same items in the same order have the same canonical bytes. -/
theorem canonicalText_congr {a b : List (String × TextScalar)} (h : List.Forall₂ SameField a b) :
    canonicalText a = canonicalText b := by
  have hsorted : List.Forall₂ SameField (a.insertionSort textKeyLE) (b.insertionSort textKeyLE) := by
    induction h with
    | nil => exact .nil
    | cons hfg _ ih => exact orderedInsert_same hfg ih
  rw [canonicalText, canonicalText, dumpsTextFields_congr hsorted]

/-! ### Strings without surrogates -/

def Scalar.text : Scalar → TextScalar
  | .null => .null
  | .int i => .int i
  | .str s => .str (CapsuleAnchor.text s)

@[simp] theorem Scalar.text_optStr (s : Option String) :
    (Scalar.optStr s).text = TextScalar.optStr (s.map CapsuleAnchor.text) := by
  cases s <;> rfl

/-- For an object whose strings hold no surrogates these are the bytes of `canonical`. -/
theorem canonicalText_text (obj : List (String × Scalar)) :
    canonicalText (obj.map fun f => (f.1, f.2.text)) = canonical obj := by
  have hfield : ∀ f : String × Scalar, dumpsTextField (f.1, f.2.text) = dumpsField f := by
    rintro ⟨key, value⟩
    cases value with
    | null => rfl
    | int i => rfl
    | str s => simp only [dumpsTextField, dumpsField, Scalar.text, TextScalar.dumps, Scalar.dumps, dumpsText_text]
  have hfields : ∀ fs : List (String × Scalar), dumpsTextFields (fs.map fun f => (f.1, f.2.text)) = dumpsFields fs := by
    intro fs
    induction fs with
    | nil => rfl
    | cons f fs ih =>
      cases fs with
      | nil => simp only [List.map_cons, List.map_nil, dumpsTextFields, dumpsFields, hfield]
      | cons g fs =>
        rw [List.map_cons] at ih
        simp only [List.map_cons, dumpsTextFields, dumpsFields, hfield, ih]
  rw [canonicalText, canonical, ← hfields, List.map_insertionSort keyLE textKeyLE _ _ (fun _ _ _ _ => Iff.rfl)]

end CapsuleAnchor

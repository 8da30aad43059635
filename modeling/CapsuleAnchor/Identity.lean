import CapsuleAnchor.Dedup

/-!
# Whom an entry hash names

Two preimages are hashed into one key space: the `Sig_structure` of a COSE_Sign1 with an embedded payload, and the raw
bytes of anything else.  Neither carries a tag.  So the bytes of a `Sig_structure`, submitted by themselves, have the
entry hash of every statement that signs it (`Shadows`).  `entryHash_faithful`: on every other pair the entry hash
tells signing acts apart, and nothing else.
-/

namespace CapsuleAnchor

variable (E : Env)

/-- `a` is the `Sig_structure` of the statement `b`, submitted as it is. -/
def Shadows (a b : Bytes) : Prop :=
  (entryHashPreimage E a).2 = .legacy ∧ ∃ protectedBstr payload u sig,
    decodeCoseSign1 E b = some ⟨protectedBstr, u, some payload, sig⟩ ∧ a = sigStructure E protectedBstr payload

/-- The CBOR encoding of a `Sig_structure` is injective on what `a` and `b` decode to. -/
def SigStructureInjective (a b : Bytes) : Prop := ∀ p pl u sig p' pl' u' sig',
  decodeCoseSign1 E a = some ⟨p, u, some pl, sig⟩ → decodeCoseSign1 E b = some ⟨p', u', some pl', sig'⟩ →
    sigStructure E p pl = sigStructure E p' pl' → p = p' ∧ pl = pl'

/-- The two ways to a preimage. -/
theorem entryHashPreimage_cases (b : Bytes) :
    (entryHashPreimage E b = (b, .legacy) ∧
      ∀ p u pl sig, decodeCoseSign1 E b ≠ some ⟨p, u, some pl, sig⟩) ∨
    ∃ p u pl sig, decodeCoseSign1 E b = some ⟨p, u, some pl, sig⟩ ∧
      entryHashPreimage E b = (sigStructure E p pl, .sigStructure) := by
  cases hdecode : decodeCoseSign1 E b with
  | none =>
    left
    refine ⟨by simp [entryHashPreimage, hdecode], ?_⟩
    intro p u pl sig h
    cases h
  | some sign1 =>
    obtain ⟨p, u, payload, sig⟩ := sign1
    cases payload with
    | none =>
      left
      refine ⟨by simp [entryHashPreimage, hdecode], ?_⟩
      intro p' u' pl sig' h
      cases h
    | some pl =>
      right
      exact ⟨p, u, pl, sig, rfl, by simp [entryHashPreimage, hdecode]⟩

/-- Raw bytes have the entry hash of a statement when they are its `Sig_structure`. -/
private theorem raw_iff {a b : Bytes} (hcollision : E.sha256 (entryHashPreimage E a).1 = E.sha256 (entryHashPreimage E b).1 →
      (entryHashPreimage E a).1 = (entryHashPreimage E b).1)
    (ha : entryHashPreimage E a = (a, .legacy)) {p pl sig : Bytes} {u : List (Cbor × Cbor)}
    (hdecode : decodeCoseSign1 E b = some ⟨p, u, some pl, sig⟩)
    (hb : entryHashPreimage E b = (sigStructure E p pl, .sigStructure)) :
    (computeEntryHash E a).1 = (computeEntryHash E b).1 ↔ Shadows E a b := by
  simp only [computeEntryHash]
  constructor
  · intro h
    have hpre := hcollision h
    rw [ha, hb] at hpre
    exact ⟨by rw [ha], p, pl, u, sig, hdecode, hpre⟩
  · rintro ⟨-, p', pl', u', sig', hdecode', hshadow⟩
    obtain ⟨rfl, -, rfl, -⟩ : p = p' ∧ u = u' ∧ pl = pl' ∧ sig = sig' := by
      simpa using hdecode.symm.trans hdecode'
    rw [ha, hb, hshadow]

/-- The entry hash identifies a signing act, or raw bytes, exactly when neither side is the other's `Sig_structure`. -/
theorem entryHash_faithful (a b : Bytes)
    (hcollision : E.sha256 (entryHashPreimage E a).1 = E.sha256 (entryHashPreimage E b).1 →
      (entryHashPreimage E a).1 = (entryHashPreimage E b).1) (hcbor : SigStructureInjective E a b) :
    ((computeEntryHash E a).1 = (computeEntryHash E b).1 ↔ a = b ∨ SameAct E a b) ↔
      ¬ Shadows E a b ∧ ¬ Shadows E b a := by
  have hraw : ∀ {x : Bytes}, (entryHashPreimage E x).2 = .sigStructure → ∀ y, ¬ Shadows E x y := by
    rintro x hx y ⟨hlegacy, -⟩
    rw [hx] at hlegacy
    cases hlegacy
  rcases entryHashPreimage_cases E a with ⟨ha, hna⟩ | ⟨p, u, pl, sig, hda, ha⟩ <;>
    rcases entryHashPreimage_cases E b with ⟨hb, hnb⟩ | ⟨p', u', pl', sig', hdb, hb⟩
  · -- raw bytes on both sides
    have hact : ¬ SameAct E a b := by
      rintro ⟨p, pl, u, v, sig, sig', hda, -⟩
      exact hna _ _ _ _ hda
    have hshadow : ∀ {x y : Bytes}, (∀ p u pl sig, decodeCoseSign1 E y ≠ some ⟨p, u, some pl, sig⟩) → ¬ Shadows E x y := by
      rintro x y hny ⟨-, p, pl, u, sig, hdy, -⟩
      exact hny _ _ _ _ hdy
    refine iff_of_true ?_ ⟨hshadow hnb, hshadow hna⟩
    constructor
    · intro h
      have hpre := hcollision h
      rw [ha, hb] at hpre
      exact .inl hpre
    · rintro (rfl | h)
      · rfl
      · exact absurd h hact
  · -- raw bytes and a statement
    have hne : ¬ (a = b ∨ SameAct E a b) := by
      rintro (rfl | ⟨p, pl, u, v, sig, sig', hda, -⟩)
      · exact hna _ _ _ _ hdb
      · exact hna _ _ _ _ hda
    have hback : ¬ Shadows E b a := hraw (by rw [hb]) a
    rw [raw_iff E hcollision ha hdb hb]
    simp [hne, hback]
  · -- a statement and raw bytes
    have hne : ¬ (a = b ∨ SameAct E a b) := by
      rintro (rfl | ⟨p, pl, u, v, sig, sig', -, hdb⟩)
      · exact hnb _ _ _ _ hda
      · exact hnb _ _ _ _ hdb
    have hback : ¬ Shadows E a b := hraw (by rw [ha]) b
    have hiff := raw_iff E (fun h => (hcollision h.symm).symm) hb hda ha
    rw [eq_comm, hiff]
    simp [hne, hback]
  · -- two statements
    refine iff_of_true ?_ ⟨hraw (by rw [ha]) b, hraw (by rw [hb]) a⟩
    constructor
    · intro h
      have hpre := hcollision h
      rw [ha, hb] at hpre
      obtain ⟨rfl, rfl⟩ := hcbor p pl u sig p' pl' u' sig' hda hdb hpre
      exact .inr ⟨p, pl, u, u', sig, sig', hda, hdb⟩
    · rintro (rfl | hact)
      · rfl
      · rw [hact.computeEntryHash]

/-- Two twins of one act. -/
theorem entryHash_faithful_sample :
    ((computeEntryHash refActEnv (refEnvelope [160])).1 = (computeEntryHash refActEnv (refEnvelope [161, 97, 120, 1])).1 ↔
      refEnvelope [160] = refEnvelope [161, 97, 120, 1] ∨
        SameAct refActEnv (refEnvelope [160]) (refEnvelope [161, 97, 120, 1])) := by
  obtain ⟨u, hdecode⟩ := decode_refEnvelope (.inr (.inl rfl))
  obtain ⟨v, hdecode'⟩ := decode_refEnvelope (.inr (.inr rfl))
  have hpre : entryHashPreimage refActEnv (refEnvelope [160]) =
      entryHashPreimage refActEnv (refEnvelope [161, 97, 120, 1]) := by
    simp only [entryHashPreimage, hdecode, hdecode']
  have hscheme : (entryHashPreimage refActEnv (refEnvelope [160])).2 = .sigStructure := by
    simp only [entryHashPreimage, hdecode]
  refine (entryHash_faithful refActEnv _ _ (fun _ => by rw [hpre]) ?_).2 ⟨?_, ?_⟩
  · intro p pl w sig p' pl' w' sig' h h' _
    rw [hdecode] at h
    rw [hdecode'] at h'
    simp only [Option.some.injEq, CoseSign1.mk.injEq] at h h'
    exact ⟨h.1.symm.trans h'.1, h.2.2.1.symm.trans h'.2.2.1⟩
  · rintro ⟨hlegacy, -⟩
    rw [hscheme] at hlegacy
    cases hlegacy
  · rintro ⟨hlegacy, -⟩
    rw [← hpre, hscheme] at hlegacy
    cases hlegacy

/-- The decoder's tables with the `Sig_structure` of the twins, an array without a tag. -/
def refShadowActs : List (Bytes × Cbor) :=
  (sigStructure refActEnv [161, 1, 39] (ascii "statement"),
    .array [.text "Signature1", .bytes [161, 1, 39], .bytes [], .bytes (ascii "statement")]) :: refActs

def refShadowEnv : Env := refEnv refShadowActs [] fun _ _ _ _ _ => true

/-- The to-be-signed bytes of a statement, submitted raw, have its entry hash. -/
theorem sigStructure_shadows :
    let a := sigStructure refShadowEnv [161, 1, 39] (ascii "statement")
    let b := refEnvelope [160]
    a.length ≤ maxStatementBytes ∧ b.length ≤ maxStatementBytes ∧
      (computeEntryHash refShadowEnv a).1 = (computeEntryHash refShadowEnv b).1 ∧ a ≠ b ∧ ¬ SameAct refShadowEnv a b := by
  intro a b
  have hraw : decodeCoseSign1 refShadowEnv a = none := by
    have hloads : refShadowEnv.cborLoads a = refShadowActs.lookup a := rfl
    have ha : a = sigStructure refActEnv [161, 1, 39] (ascii "statement") := rfl
    rw [decodeCoseSign1, hloads, refShadowActs, ha, List.lookup_cons_self]
  have hstatement : ∃ u, decodeCoseSign1 refShadowEnv b = some ⟨[161, 1, 39], u, some (ascii "statement"), []⟩ := by
    exact ⟨[], rfl⟩
  obtain ⟨u, hdecode⟩ := hstatement
  refine ⟨by decide, by decide, ?_, ?_, ?_⟩
  · simp only [computeEntryHash, entryHashPreimage, hraw, hdecode]
    rfl
  · intro h
    rw [h, hdecode] at hraw
    cases hraw
  · rintro ⟨p, pl, v, w, sig, sig', h, -⟩
    rw [hraw] at h
    cases h

end CapsuleAnchor

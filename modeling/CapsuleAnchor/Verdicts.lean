import CapsuleAnchor.Countersign
import CapsuleAnchor.Steps

/-!
# What a countersignature entry can prove

`verify_entry` counts an entry when its signature verifies over the bundle digest, its signer, its statement and
`countersign/v1`; nothing else of the entry is read.  So the entry that `sign_countersignature` returns is judged by its
key alone, and every change to what is signed is noticed (`countersignature_round_trip`); and a list of entries resolves to
the best of its entries' states, in whatever order they stand (`resolve_countersigned_iff`).
-/

namespace CapsuleAnchor

variable {L : CountersignLib}

/-! ### Hex -/

private theorem hexDigit_cases {n : Nat} (h : n < 16) :
    hexDigitValue (charCodePoint (Char.ofUInt8 (hexDigit n))) = some n ∧
      (48 ≤ (charCodePoint (Char.ofUInt8 (hexDigit n))).val ∧ (charCodePoint (Char.ofUInt8 (hexDigit n))).val ≤ 57 ∨
        97 ≤ (charCodePoint (Char.ofUInt8 (hexDigit n))).val ∧
          (charCodePoint (Char.ofUInt8 (hexDigit n))).val ≤ 102) := by
  revert n
  decide

private theorem hexText_cons (x : UInt8) (b : Bytes) : hexText (x :: b) =
    charCodePoint (Char.ofUInt8 (hexDigit (x.toNat / 16))) ::
      charCodePoint (Char.ofUInt8 (hexDigit (x.toNat % 16))) :: hexText b := by
  simp only [hexText, bytesHex, text, String.toList_ofList, List.flatMap_cons, List.map_cons, List.cons_append,
    List.nil_append]

/-- The hex of a byte string is a hex string of twice its length. -/
theorem isHex_hexText (b : Bytes) : (hexText b).isHex (2 * b.length) = true := by
  induction b with
  | nil => rfl
  | cons x b ih =>
    have hx := x.toNat_lt
    have hhigh := hexDigit_cases (show x.toNat / 16 < 16 by omega)
    have hlow := hexDigit_cases (show x.toNat % 16 < 16 by omega)
    simp only [Text.isHex, Bool.and_eq_true, beq_iff_eq, List.all_eq_true, decide_eq_true_eq] at ih ⊢
    rw [hexText_cons]
    refine ⟨by simp only [List.length_cons, ih.1]; omega, ?_⟩
    intro c hc
    rcases List.mem_cons.1 hc with rfl | hc
    · exact hhigh.2
    rcases List.mem_cons.1 hc with rfl | hc
    · exact hlow.2
    · exact ih.2 c hc

/-- `bytes.fromhex` reads what `bytes.hex` writes. -/
theorem fromHex_hexText (b : Bytes) : (hexText b).fromHex = some b := by
  induction b with
  | nil => rfl
  | cons x b ih =>
    have hx := x.toNat_lt
    obtain ⟨hhigh, hrange⟩ := hexDigit_cases (show x.toNat / 16 < 16 by omega)
    obtain ⟨hlow, -⟩ := hexDigit_cases (show x.toNat % 16 < 16 by omega)
    rw [hexText_cons, Text.fromHex, if_neg (by omega), hhigh, hlow, ih]
    simp only [Option.bind_eq_bind, Option.bind_some, Option.pure_def]
    rw [show 16 * (x.toNat / 16) + x.toNat % 16 = x.toNat by omega, UInt8.ofNat_toNat]

/-! ### One entry -/

/-- The signature of an entry verifies under its own key id, over a digest, its signer, its statement and a type. -/
def SignedBy (L : CountersignLib) (digest : Text) (entryType : JsonValue) (members : Members) (keyId : Text) : Prop :=
  ∃ signer statement signature key sig message, signerKeyId members = some keyId ∧
    members.get (text "signer") = some signer ∧ members.get (text "statement") = some statement ∧
    members.get (text "signature") = some (.str signature) ∧ keyId.fromHex = some key ∧
    signature.fromHex = some sig ∧ countersignSigningInput L.jcs digest signer statement entryType = .ok message ∧
    L.ed25519Verify key sig message = true

/-- A `countersign/v1` entry over the digest that `keyId` signed. -/
structure CountersignedBy (L : CountersignLib) (digest : Text) (members : Members) (keyId : Text) : Prop where
  verifiedType : verifiedType members = true
  over' : members.get (text "over") = some (.str digest)
  keyHex : keyId.isHex 64 = true
  signatureHex : ∃ signature, members.get (text "signature") = some (.str signature) ∧ signature.isHex 128 = true
  signed : SignedBy L digest (.str countersignEntryType) members keyId

/-- The verdict on a valid entry. -/
def keyVerdict (producerKeyIds : List Text) (directory : Option Members) (keyId : Text) : EntryState :=
  if keyId ∈ producerKeyIds.map Text.lower then .selfCountersigned
  else if keyId ∉ (directory.getD []).map (fun row => row.1.lower) then .unresolvedSigner
  else .countersigned

theorem entryTypeOf_of_verified {members : Members} (h : verifiedType members = true) :
    entryTypeOf members = .str countersignEntryType := by
  unfold verifiedType at h
  unfold entryTypeOf
  split at h
  · rename_i hget
    rw [hget]
  · rename_i hget
    rw [hget]
    rfl
  · rename_i entryType hget
    rw [hget]
    rcases of_decide_eq_true h with rfl | rfl
    · rfl
    · rfl
  · cases h

theorem CountersignedBy.signatureValid {digest : Text} {members : Members} {keyId : Text}
    (h : CountersignedBy L digest members keyId) : signatureValid L members digest = true := by
  obtain ⟨hkind, hover, hkey, ⟨signature, hsignature, hhex⟩, hsigned⟩ := h
  obtain ⟨signer, statement, signature', key, sig, message, hid, hsigner, hstatement, hsignature', hkeyBytes,
    hsigBytes, hmessage, hverify⟩ := hsigned
  obtain rfl : signature = signature' := by
    rw [hsignature] at hsignature'
    exact JsonValue.str.inj (Option.some.inj hsignature')
  unfold CapsuleAnchor.signatureValid
  simp only [hid, hsignature, hover, hstatement, hsigner, hkey, hhex, entryTypeOf_of_verified hkind, hmessage, hkeyBytes,
    hsigBytes, hverify, not_true_eq_false, if_false, ne_eq]

theorem countersignedBy_of_valid {digest : Text} {members : Members} (hkind : verifiedType members = true)
    (h : signatureValid L members digest = true) : ∃ keyId, CountersignedBy L digest members keyId := by
  unfold signatureValid at h
  split at h
  · rename_i keyId signature hid hsignature
    split at h
    · cases h
    rename_i hkey
    split at h
    · cases h
    rename_i hhex
    split at h
    · rename_i over' statement signer hover hstatement hsigner
      split at h
      · cases h
      rename_i hdigest
      split at h
      · rename_i message key sig hmessage hkeyBytes hsigBytes
        obtain rfl : over' = digest := by simpa using hdigest
        rw [entryTypeOf_of_verified hkind] at hmessage
        exact ⟨keyId, hkind, hover, by simpa using hkey, ⟨signature, hsignature, by simpa using hhex⟩, signer, statement,
          signature, key, sig, message, hid, hsigner, hstatement, hsignature, hkeyBytes, hsigBytes, hmessage, h⟩
      · cases h
    · cases h
  · cases h

theorem CountersignedBy.entryState {digest : Text} {members : Members} {keyId : Text}
    (h : CountersignedBy L digest members keyId) (producerKeyIds : List Text) (directory : Option Members) :
    entryState L digest producerKeyIds directory members = keyVerdict producerKeyIds directory keyId := by
  obtain ⟨signer, statement, signature, key, sig, message, hid, -⟩ := h.signed
  simp only [CapsuleAnchor.entryState, h.verifiedType, h.signatureValid, hid, keyVerdict, not_true_eq_false, if_false]

/-- An entry that no key signed counts for nothing. -/
theorem entryState_of_not {digest : Text} {members : Members} (h : ∀ keyId, ¬ CountersignedBy L digest members keyId)
    (producerKeyIds : List Text) (directory : Option Members) :
    entryState L digest producerKeyIds directory members = .invalid ∨
      entryState L digest producerKeyIds directory members = .unverified := by
  by_cases hkind : verifiedType members = true
  · have hinvalid : ¬ signatureValid L members digest = true := by
      intro hvalid
      obtain ⟨keyId, hsigned⟩ := countersignedBy_of_valid hkind hvalid
      exact h keyId hsigned
    left
    rw [entryState, if_neg (by simpa using hkind), if_pos hinvalid]
  · right
    rw [entryState, if_pos hkind]

theorem verifyEntry_obj (bundle : Bundle L) (members : Members) (producerKeyIds : List Text)
    (directory : Option Members) : verifyEntry bundle (.obj members) producerKeyIds directory =
      .ok (entryState L bundle.digest producerKeyIds directory members) := by
  rw [verifyEntry]
  split
  · rename_i hkind
    rw [entryState, if_pos hkind]
  · rw [computeBundleDigest, bundle.digest_eq]
    rfl

/-! ### The entry that is signed -/

/-- Objects with the same canonical form have, under every name, members with the same canonical form. -/
def JcsInjective (jcs : JsonValue → Except Text Bytes) : Prop :=
  ∀ (a b : Members) (bytes : Bytes), jcs (.obj a) = .ok bytes → jcs (.obj b) = .ok bytes →
    ∀ key, (a.get key).map jcs = (b.get key).map jcs

/-- The authority's signature on a message verifies under its key, for this message, and not otherwise. -/
def SignsOnly (L : CountersignLib) {E : Env} (authority : Authority E) (message : Bytes) : Prop :=
  ∀ key m, L.ed25519Verify key (E.sign message) m = true ↔ key = authority.publicKey ∧ m = message

/-- `over`, `signer` or `statement`, or the type, has become a value with another canonical form; an empty type is none. -/
def Replaced (jcs : JsonValue → Except Text Bytes) (entry entry' : Members) : Prop :=
  (∃ key ∈ [text "over", text "signer", text "statement"], ∃ v v', entry.get key = some v ∧ entry'.get key = some v' ∧
    jcs v' ≠ jcs v) ∨
  ∃ v v', entry.get (text "type") = some v ∧ entry'.get (text "type") = some v' ∧ v' ≠ .null ∧ v' ≠ .str [] ∧
    jcs v' ≠ jcs v

/-- The entries agree on all that is read; the type may have been dropped or emptied. -/
def SameSigned (entry entry' : Members) : Prop :=
  (∀ key ∈ [text "over", text "signer", text "statement", text "signature"], entry'.get key = entry.get key) ∧
  entry'.get (text "type") ∈ [entry.get (text "type"), none, some .null, some (.str [])]

section Signed

variable {E : Env} {cfg : Config} {b : Backend} {now : Nat → Datetime} {authority : Authority E} {bundle : Bundle L}
  {statement : Statement} {signerId requesterKeyId : Text} {node : CountersignNode b} {entry : Members}

/-- The signer member of the entries of an authority. -/
abbrev authoritySigner (authority : Authority E) (signerId : Text) : JsonValue :=
  wireSigner signerId (hexText authority.publicKey)

theorem signCountersignature_ok
    (h : (signCountersignature E cfg now authority bundle statement signerId requesterKeyId node).1 = .ok entry) :
    ∃ message bytes independent receipt,
      signingStrings bundle statement (authoritySigner authority signerId) = .ok (message, bytes) ∧
      entry = countersignEntry bundle.digest (authoritySigner authority signerId) (.obj statement.wireDict)
        (E.sign message) independent receipt := by
  unfold signCountersignature at h
  simp only at h
  cases hstrings : signingStrings bundle statement (wireSigner signerId (hexText authority.publicKey)) with
  | error name =>
    rw [hstrings] at h
    cases h
  | ok strings =>
    obtain ⟨message, bytes⟩ := strings
    rw [hstrings] at h
    simp only at h
    split at h
    · cases h
    · exact ⟨message, bytes, _, _, rfl, (Except.ok.inj h).symm⟩

/-- A statement that has a canonical form and is registered makes an entry. -/
theorem signCountersignature_of_registered {message bytes : Bytes}
    (hstrings : signingStrings bundle statement (authoritySigner authority signerId) = .ok (message, bytes))
    {reg : StatementRegistration} {store store' : b.Store}
    (hregister : (registerSignedStatementFull E cfg now (E.sha256 bytes).bytes none none).runRaising (b.Raises E) (b.exec E)
      store = (.ok reg, store')) (attested : List Bytes) :
    signCountersignature E cfg now authority bundle statement signerId requesterKeyId ⟨store, attested⟩ =
      (.ok (countersignEntry bundle.digest (authoritySigner authority signerId) (.obj statement.wireDict) (E.sign message)
        (decide ((hexText authority.publicKey).lower ≠ requesterKeyId.lower)) (receiptMember E reg)),
        ⟨store', attested ++ [message]⟩) := by
  simp only [signCountersignature, hstrings, hregister]

/-- A service over its dicts registers bytes that are no COSE_Sign1 and are new to it. -/
theorem registers_raw (E : Env) (cfg : Config) (now : Nat → Datetime) {s : MemoryStore} (h : Indexed s.log) {d : Bytes}
    (hdecode : decodeCoseSign1 E d = none) (hsize : d.length ≤ maxStatementBytes)
    (hmiss : s.statements.lookup (E.sha256 d) = none) : ∃ reg s',
    (registerSignedStatementFull E cfg now d none none).runRaising (Backend.memory.Raises E) (Backend.memory.exec E) s =
      (.ok reg, s') ∧ s'.log.length = s.log.length + 1 := by
  have hgate : (optionally (none : Option Checkpoint) (checkCheckpointContinuity E cfg)).run MemoryStore.exec s =
      (.ok none, s) := rfl
  have hprep := prepare_raw E cfg.payloadPolicy hdecode hsize
  have hfresh := register_fresh_run E cfg h hprep rfl (cachedStatement_none.2 ⟨hmiss, hmiss⟩) hgate now none
  refine ⟨freshResult E now (rawSubmission E d) none none none none s.log,
    freshState E now (rawSubmission E d) none none none s, ?_, ?_⟩
  · rw [Backend.runRaising_memory, hfresh]
    rfl
  · simp only [log_freshState, length_registeredLog]

private theorem signingInput_ok {message bytes : Bytes}
    (h : signingStrings bundle statement (authoritySigner authority signerId) = .ok (message, bytes)) :
    countersignSigningInput L.jcs bundle.digest (authoritySigner authority signerId) (.obj statement.wireDict)
      (.str countersignEntryType) = .ok message := by
  unfold signingStrings at h
  cases hinput : countersignSigningInput L.jcs bundle.digest (authoritySigner authority signerId)
      (.obj statement.wireDict) (.str countersignEntryType) with
  | error name =>
    rw [hinput] at h
    cases h
  | ok input =>
    rw [hinput] at h
    cases hbytes : statement.canonicalBytes L with
    | error name =>
      rw [hbytes] at h
      cases h
    | ok bytes' =>
      rw [hbytes] at h
      rw [(Prod.mk.inj (Except.ok.inj h)).1]

/-- Whatever else it carries, an entry with what the authority signed and its signature is signed by the authority. -/
theorem countersignedBy_authority {message bytes : Bytes}
    (hstrings : signingStrings bundle statement (authoritySigner authority signerId) = .ok (message, bytes))
    (hexact : SignsOnly L authority message) {members : Members} (hkind : verifiedType members = true)
    (hover : members.get (text "over") = some (.str bundle.digest))
    (hsigner : members.get (text "signer") = some (authoritySigner authority signerId))
    (hstatement : members.get (text "statement") = some (.obj statement.wireDict))
    (hsignature : members.get (text "signature") = some (.str (hexText (E.sign message)))) :
    CountersignedBy L bundle.digest members (hexText authority.publicKey) := by
  have hkey : (hexText authority.publicKey).isHex 64 = true := by
    have := isHex_hexText authority.publicKey
    rwa [authority.length_publicKey] at this
  have hhex : (hexText (E.sign message)).isHex 128 = true := by
    have := isHex_hexText (E.sign message)
    rwa [authority.length_sign] at this
  have hid : signerKeyId members = some (hexText authority.publicKey) := by
    rw [signerKeyId, hsigner]
    rfl
  exact ⟨hkind, hover, hkey, ⟨_, hsignature, hhex⟩, _, _, _, _, _, _, hid, hsigner, hstatement, hsignature,
    fromHex_hexText _, fromHex_hexText _, signingInput_ok hstrings, (hexact _ _).2 ⟨rfl, rfl⟩⟩

/-- An entry that carries the authority's signature and is valid has what the authority signed. -/
theorem members_of_signature {message bytes : Bytes}
    (hstrings : signingStrings bundle statement (authoritySigner authority signerId) = .ok (message, bytes))
    (hexact : SignsOnly L authority message) (hjcs : JcsInjective L.jcs) {members : Members} {keyId : Text}
    (hsignature : members.get (text "signature") = some (.str (hexText (E.sign message))))
    (h : CountersignedBy L bundle.digest members keyId) :
    (members.get (text "signer")).map L.jcs = some (L.jcs (authoritySigner authority signerId)) ∧
      (members.get (text "statement")).map L.jcs = some (L.jcs (.obj statement.wireDict)) := by
  obtain ⟨signer, statement', signature, key, sig, message', -, hsigner, hstatement, hsignature', -, hsig, hmessage,
    hverify⟩ := h.signed
  obtain rfl : sig = E.sign message := by
    rw [hsignature] at hsignature'
    rw [← JsonValue.str.inj (Option.some.inj hsignature'), fromHex_hexText] at hsig
    exact (Option.some.inj hsig).symm
  obtain ⟨-, rfl⟩ := (hexact key message').1 hverify
  have hmembers := hjcs _ _ _ hmessage (signingInput_ok hstrings)
  rw [hsigner, hstatement]
  exact ⟨hmembers (text "signer"), hmembers (text "statement")⟩

/-- The entry that is signed is judged by its key alone; no change to what is signed leaves it valid, and nothing else of
the entry matters. -/
theorem countersignature_round_trip (producerKeyIds : List Text) (directory : Option Members)
    (hjcs : JcsInjective L.jcs)
    (hexact : ∀ message bytes, signingStrings bundle statement (authoritySigner authority signerId) = .ok (message, bytes) →
      SignsOnly L authority message)
    (hentry : (signCountersignature E cfg now authority bundle statement signerId requesterKeyId node).1 = .ok entry) :
    verifyEntry bundle (.obj entry) producerKeyIds directory =
      .ok (keyVerdict producerKeyIds directory (hexText authority.publicKey)) ∧
    (∀ entry' : Members, entry'.get (text "signature") = entry.get (text "signature") → Replaced L.jcs entry entry' →
      verifyEntry bundle (.obj entry') producerKeyIds directory = .ok .invalid ∨
        verifyEntry bundle (.obj entry') producerKeyIds directory = .ok .unverified) ∧
    ∀ entry' : Members, SameSigned entry entry' →
      verifyEntry bundle (.obj entry') producerKeyIds directory = verifyEntry bundle (.obj entry) producerKeyIds directory := by
  obtain ⟨message, bytes, independent, receipt, hstrings, rfl⟩ := signCountersignature_ok hentry
  have hexact := hexact message bytes hstrings
  have hsigned : CountersignedBy L bundle.digest (countersignEntry bundle.digest (authoritySigner authority signerId)
      (.obj statement.wireDict) (E.sign message) independent receipt) (hexText authority.publicKey) :=
    countersignedBy_authority hstrings hexact rfl rfl rfl rfl rfl
  have hverdict : verifyEntry bundle (.obj (countersignEntry bundle.digest (authoritySigner authority signerId)
      (.obj statement.wireDict) (E.sign message) independent receipt)) producerKeyIds directory =
      .ok (keyVerdict producerKeyIds directory (hexText authority.publicKey)) := by
    rw [verifyEntry_obj, hsigned.entryState]
  refine ⟨hverdict, ?_, ?_⟩
  · intro entry' hsignature hreplaced
    have hnot : ∀ keyId, ¬ CountersignedBy L bundle.digest entry' keyId := by
      intro keyId hkey
      obtain ⟨hsigner, hstatement⟩ := members_of_signature hstrings hexact hjcs hsignature hkey
      rcases hreplaced with ⟨key, hkeys, v, v', hv, hv', hdiffer⟩ | ⟨v, v', hv, hv', hnull, hempty, hdiffer⟩
      · simp only [List.mem_cons, List.not_mem_nil, or_false] at hkeys
        rcases hkeys with rfl | rfl | rfl
        · obtain rfl : .str bundle.digest = v := Option.some.inj hv
          rw [hkey.over'] at hv'
          exact hdiffer (congrArg L.jcs (Option.some.inj hv').symm)
        · obtain rfl : authoritySigner authority signerId = v := Option.some.inj hv
          rw [hv'] at hsigner
          exact hdiffer (Option.some.inj hsigner)
        · obtain rfl : .obj statement.wireDict = v := Option.some.inj hv
          rw [hv'] at hstatement
          exact hdiffer (Option.some.inj hstatement)
      · obtain rfl : .str countersignEntryType = v := Option.some.inj hv
        have hkind := hkey.verifiedType
        rw [verifiedType, hv'] at hkind
        -- the only other type that is verified is the one that was signed
        cases v' with
        | null => exact hnull rfl
        | str entryType =>
          rcases of_decide_eq_true hkind with rfl | rfl
          · exact hempty rfl
          · exact hdiffer rfl
        | _ => cases hkind
    rw [verifyEntry_obj]
    rcases entryState_of_not hnot producerKeyIds directory with h | h
    · rw [h]
      exact .inl rfl
    · rw [h]
      exact .inr rfl
  · rintro entry' ⟨hsame, htype⟩
    have hkind : verifiedType entry' = true := by
      simp only [List.mem_cons, List.not_mem_nil, or_false] at htype
      rcases htype with h | h | h | h <;> rw [verifiedType, h] <;> rfl
    have hsigned' := countersignedBy_authority hstrings hexact hkind (hsame _ (by simp)) (hsame _ (by simp))
      (hsame _ (by simp)) (hsame _ (by simp))
    rw [hverdict, verifyEntry_obj, hsigned'.entryState]

end Signed

/-! ### A list of entries -/

/-- The state of an arbitrary value among the entries. -/
def valueState (L : CountersignLib) (digest : Text) (producerKeyIds : List Text) (directory : Option Members) :
    JsonValue → EntryState
  | .obj members => entryState L digest producerKeyIds directory members
  | _ => .invalid

theorem verifyEntry_eq (bundle : Bundle L) (producerKeyIds : List Text) (directory : Option Members)
    (entry : JsonValue) : verifyEntry bundle entry producerKeyIds directory =
      .ok (valueState L bundle.digest producerKeyIds directory entry) := by
  cases entry with
  | obj members => exact verifyEntry_obj bundle members producerKeyIds directory
  | _ => rfl

theorem EntryState.rank_inj {a b : EntryState} (h : a.rank = b.rank) : a = b := by
  cases a <;> cases b <;> simp [EntryState.rank] at h <;> rfl

theorem best_mem (state : EntryState) (states : List EntryState) : best state states ∈ state :: states := by
  induction states generalizing state with
  | nil => exact List.mem_cons_self
  | cons next states ih =>
    by_cases hlt : state.rank < next.rank
    · rw [best, if_pos hlt]
      exact List.mem_cons_of_mem _ (ih next)
    · rw [best, if_neg hlt]
      rcases List.mem_cons.1 (ih state) with h | h
      · rw [h]
        exact List.mem_cons_self
      · exact List.mem_cons_of_mem _ (List.mem_cons_of_mem _ h)

theorem rank_le_best (state : EntryState) (states : List EntryState) :
    ∀ s ∈ state :: states, s.rank ≤ (best state states).rank := by
  induction states generalizing state with
  | nil =>
    intro s hs
    rw [List.mem_singleton.1 hs, best]
  | cons next states ih =>
    intro s hs
    by_cases hlt : state.rank < next.rank
    · have hnext := ih next next List.mem_cons_self
      rw [best, if_pos hlt]
      rcases List.mem_cons.1 hs with rfl | hs
      · omega
      · exact ih next s hs
    · have hstate := ih state state List.mem_cons_self
      rw [best, if_neg hlt]
      rcases List.mem_cons.1 hs with rfl | hs
      · exact hstate
      rcases List.mem_cons.1 hs with rfl | hs
      · omega
      · exact ih state s (List.mem_cons_of_mem _ hs)

/-- What a list of entries resolves to: a state of one of them, and none is better. -/
theorem resolveEntryState_ok (bundle : Bundle L) {entries : List JsonValue} (hne : entries ≠ [])
    (producerKeyIds : List Text) (directory : Option Members) :
    ∃ state, resolveEntryState bundle entries producerKeyIds directory = .ok (.entry state) ∧
      (∃ entry ∈ entries, valueState L bundle.digest producerKeyIds directory entry = state) ∧
      ∀ entry ∈ entries, (valueState L bundle.digest producerKeyIds directory entry).rank ≤ state.rank := by
  obtain ⟨entry, entries, rfl⟩ := List.exists_cons_of_ne_nil hne
  have hmap : ∀ es : List JsonValue,
      es.mapM (fun entry => verifyEntry bundle entry producerKeyIds directory) =
        .ok (es.map (valueState L bundle.digest producerKeyIds directory)) := by
    intro es
    induction es with
    | nil => rfl
    | cons e es ih =>
      rw [List.mapM_cons, verifyEntry_eq, ih]
      rfl
  refine ⟨best (valueState L bundle.digest producerKeyIds directory entry)
    (entries.map (valueState L bundle.digest producerKeyIds directory)), ?_, ?_, ?_⟩
  · rw [resolveEntryState, verifyEntry_eq, hmap]
    rfl
  · rw [← List.mem_map, List.map_cons]
    exact best_mem _ _
  · intro e he
    refine rank_le_best _ _ _ ?_
    rw [← List.map_cons]
    exact List.mem_map_of_mem he

/-- A value counts as a countersignature when a key of the directory that is none of the producer's signed it. -/
theorem valueState_countersigned {digest : Text} {producerKeyIds : List Text} {directory : Option Members}
    {entry : JsonValue} : valueState L digest producerKeyIds directory entry = .countersigned ↔
      ∃ members keyId, entry = .obj members ∧ CountersignedBy L digest members keyId ∧
        keyId ∉ producerKeyIds.map Text.lower ∧ keyId ∈ (directory.getD []).map (fun row => row.1.lower) := by
  constructor
  · intro h
    cases entry with
    | obj members =>
      rw [valueState] at h
      by_cases hsigned : ∃ keyId, CountersignedBy L digest members keyId
      · obtain ⟨keyId, hkey⟩ := hsigned
        rw [hkey.entryState, keyVerdict] at h
        split at h
        · cases h
        · rename_i hproducer
          split at h
          · cases h
          · rename_i hdirectory
            exact ⟨members, keyId, rfl, hkey, hproducer, not_not.1 hdirectory⟩
      · rcases entryState_of_not (not_exists.1 hsigned) producerKeyIds directory with h' | h'
        · rw [h'] at h
          cases h
        · rw [h'] at h
          cases h
    | _ => cases h
  · rintro ⟨members, keyId, rfl, hkey, hproducer, hdirectory⟩
    rw [valueState, hkey.entryState, keyVerdict, if_neg hproducer, if_neg (not_not.2 hdirectory)]

/-- A list of entries resolves to `countersigned` when one of them is a `countersign/v1` entry over the bundle that a key
of the directory signed that is none of the producer's; the result is a state of one of the entries, depends on no more
than which values occur in the list, and more values never lower it. -/
theorem resolve_countersigned_iff (bundle : Bundle L) (entries : List JsonValue) (producerKeyIds : List Text)
    (directory : Option Members) (hne : entries ≠ []) :
    (resolveEntryState bundle entries producerKeyIds directory = .ok (.entry .countersigned) ↔
      ∃ members keyId, JsonValue.obj members ∈ entries ∧ CountersignedBy L bundle.digest members keyId ∧
        keyId ∉ producerKeyIds.map Text.lower ∧ keyId ∈ (directory.getD []).map (fun row => row.1.lower)) ∧
    ∃ state, resolveEntryState bundle entries producerKeyIds directory = .ok (.entry state) ∧
      (∀ entries', (∀ entry, entry ∈ entries' ↔ entry ∈ entries) →
        resolveEntryState bundle entries' producerKeyIds directory = .ok (.entry state)) ∧
      (∀ entries', entries ⊆ entries' → ∃ state',
        resolveEntryState bundle entries' producerKeyIds directory = .ok (.entry state') ∧ state.rank ≤ state'.rank) := by
  obtain ⟨state, hstate, ⟨entry, hentry, rfl⟩, hbest⟩ := resolveEntryState_ok bundle hne producerKeyIds directory
  have hmono : ∀ entries', entries ⊆ entries' → ∃ state',
      resolveEntryState bundle entries' producerKeyIds directory = .ok (.entry state') ∧
        (valueState L bundle.digest producerKeyIds directory entry).rank ≤ state'.rank := by
    intro entries' hsub
    obtain ⟨state', hstate', -, hbest'⟩ :=
      resolveEntryState_ok bundle (List.ne_nil_of_mem (hsub hentry)) producerKeyIds directory
    exact ⟨state', hstate', hbest' entry (hsub hentry)⟩
  refine ⟨?_, _, hstate, ?_, hmono⟩
  · rw [hstate]
    constructor
    · intro h
      obtain ⟨members, keyId, rfl, hsigned, hproducer, hdirectory⟩ :=
        valueState_countersigned.1 (BundleState.entry.inj (Except.ok.inj h))
      exact ⟨members, keyId, hentry, hsigned, hproducer, hdirectory⟩
    · rintro ⟨members, keyId, hmem, hsigned, hproducer, hdirectory⟩
      have hcounter : valueState L bundle.digest producerKeyIds directory (.obj members) = .countersigned :=
        valueState_countersigned.2 ⟨members, keyId, rfl, hsigned, hproducer, hdirectory⟩
      -- no state ranks above `countersigned`
      have htop : (valueState L bundle.digest producerKeyIds directory entry).rank = EntryState.countersigned.rank := by
        have hle := hbest _ hmem
        rw [hcounter] at hle
        have hmax : ∀ s : EntryState, s.rank ≤ EntryState.countersigned.rank := by
          intro s
          cases s <;> decide
        exact le_antisymm (hmax _) hle
      rw [EntryState.rank_inj htop]
  · intro entries' hsame
    obtain ⟨state', hstate', hle⟩ := hmono entries' (fun e he => (hsame e).2 he)
    obtain ⟨other, hother, ⟨entry', hentry', rfl⟩, -⟩ := resolveEntryState_ok bundle
      (List.ne_nil_of_mem ((hsame entry).2 hentry)) producerKeyIds directory
    rw [hother] at hstate' ⊢
    obtain rfl := BundleState.entry.inj (Except.ok.inj hstate')
    have hge := hbest entry' ((hsame entry').1 hentry')
    rw [EntryState.rank_inj (le_antisymm hge hle)]

/-! ### Samples -/

/-- A library over a table of canonical forms, in which one signature verifies. -/
private def sampleLib (table : List (JsonValue × Bytes)) (publicKey signature message : Bytes) : CountersignLib where
  jcs := tableJcs table
  bundleDigest _ := .ok (text "aa")
  verifyBundle _ := .error .other
  ed25519Verify key sig m := decide (key = publicKey ∧ sig = signature ∧ m = message)
  repr _ := []

private def sampleKey : Bytes := List.replicate 32 171

private def sampleSignature : Bytes := List.replicate 64 7

private def sampleSigner : JsonValue := wireSigner (text "did:web:example") (hexText sampleKey)

/-- An entry of some type, signed over that type. -/
private def sampleMembers (entryType : Text) : Members :=
  [(text "type", .str entryType), (text "signer", sampleSigner), (text "over", .str (text "aa")),
    (text "statement", .obj []), (text "signature", .str (hexText sampleSignature))]

private def sampleInput (entryType : Text) : JsonValue :=
  countersignSigningInput id (text "aa") sampleSigner (.obj []) (.str entryType)

private def sampleMessage (entryType : String) : Bytes :=
  ascii "\x7b\x22over\x22:\x22aa\x22,\x22signer\x22:\x7b\x22id\x22:\x22did:web:example\x22,\x22key_id\x22:\x22" ++
    ascii (bytesHex sampleKey) ++ ascii "\x22\x7d,\x22statement\x22:\x7b\x7d,\x22type\x22:\x22" ++ ascii entryType ++
    ascii "\x22\x7d"

/-- The library of an entry of some type. -/
private def entryLib (entryType : String) : CountersignLib :=
  sampleLib [(sampleInput (text entryType), sampleMessage entryType)] sampleKey sampleSignature (sampleMessage entryType)

private def sampleBundle (entryType : String) : Bundle (entryLib entryType) := ⟨[], text "aa", rfl⟩

private theorem signedBy_sampleMembers (entryType : String) :
    SignedBy (entryLib entryType) (text "aa") (.str (text entryType)) (sampleMembers (text entryType))
      (hexText sampleKey) := by
  have hjcs : countersignSigningInput (entryLib entryType).jcs (text "aa") sampleSigner (.obj []) (.str (text entryType)) =
      .ok (sampleMessage entryType) := tableJcs_head _ _ _
  exact ⟨sampleSigner, .obj [], hexText sampleSignature, sampleKey, sampleSignature, sampleMessage entryType, rfl, rfl, rfl,
    rfl, fromHex_hexText _, fromHex_hexText _, hjcs, by simp [entryLib, sampleLib]⟩

/-- The producer of the bundle has another key. -/
private def sampleProducers : List Text := [hexText (List.replicate 32 205)]

private def sampleDirectory : Option Members := some [(hexText sampleKey, .obj [])]

private theorem sampleKey_listed : hexText sampleKey ∉ sampleProducers.map Text.lower ∧
    hexText sampleKey ∈ (sampleDirectory.getD []).map (fun row => row.1.lower) := by
  decide

theorem resolve_countersigned_iff_sample : resolveEntryState (sampleBundle "countersign/v1")
    [.null, .obj (sampleMembers countersignEntryType)] sampleProducers sampleDirectory = .ok (.entry .countersigned) := by
  have hsigned : CountersignedBy (entryLib "countersign/v1") (text "aa") (sampleMembers countersignEntryType)
      (hexText sampleKey) :=
    ⟨by decide, rfl, isHex_hexText sampleKey, ⟨hexText sampleSignature, rfl, isHex_hexText sampleSignature⟩,
      signedBy_sampleMembers "countersign/v1"⟩
  refine (resolve_countersigned_iff (sampleBundle "countersign/v1") _ sampleProducers sampleDirectory (by simp)).1.2 ?_
  exact ⟨_, _, by simp, hsigned, sampleKey_listed⟩

/-- An entry of another type that a key of the directory signed, over its own type, is not verified. -/
theorem resolve_other_type : ¬ ∀ (L : CountersignLib) (bundle : Bundle L) (entries : List JsonValue)
    (producerKeyIds : List Text) (directory : Option Members), entries ≠ [] →
    (resolveEntryState bundle entries producerKeyIds directory = .ok (.entry .countersigned) ↔
      ∃ members keyId, JsonValue.obj members ∈ entries ∧
        SignedBy L bundle.digest (entryTypeOf members) members keyId ∧
        keyId ∉ producerKeyIds.map Text.lower ∧ keyId ∈ (directory.getD []).map (fun row => row.1.lower)) := by
  intro h
  have hresolve : resolveEntryState (sampleBundle "cose-sign1") [.obj (sampleMembers (text "cose-sign1"))] sampleProducers
      sampleDirectory = .ok (.entry .unverified) := by
    obtain ⟨state, hstate, ⟨entry, hentry, rfl⟩, -⟩ := resolveEntryState_ok (sampleBundle "cose-sign1")
      (List.cons_ne_nil (JsonValue.obj (sampleMembers (text "cose-sign1"))) []) sampleProducers sampleDirectory
    rw [hstate, List.mem_singleton.1 hentry]
    rfl
  have hclaim := (h (entryLib "cose-sign1") (sampleBundle "cose-sign1") _ sampleProducers sampleDirectory (by simp)).2
    ⟨sampleMembers (text "cose-sign1"), hexText sampleKey, List.mem_singleton_self _, signedBy_sampleMembers "cose-sign1",
      sampleKey_listed⟩
  rw [hresolve] at hclaim
  cases hclaim

private def sampleStatement : Statement := ⟨[], exclusions, text "ledger", 2, ⟨0, 0⟩⟩

private def sampleWire : Bytes :=
  [123, 34, 99] ++ ascii "hecks\x22:[],\x22recomputed_at\x22:\x221970-01-01T00:00:00Z\x22,\x22scope\x22:\x7b\x22closure_depth\x22:2,\x22ledger_id\x22:\x22ledger\x22\x7d\x7d"

private def sampleSigned : Bytes :=
  [123, 34, 111] ++ ascii "ver\x22:\x22aa\x22,\x22signer\x22:\x7b\x22id\x22:\x22did:web:example\x22,\x22key_id\x22:\x22" ++
    ascii (bytesHex sampleKey) ++ ascii "\x22\x7d,\x22statement\x22:" ++ sampleWire ++
    ascii ",\x22type\x22:\x22countersign/v1\x22\x7d"

private def signedTable : List (JsonValue × Bytes) :=
  [(countersignSigningInput id (text "aa") sampleSigner (.obj sampleStatement.wireDict) (.str countersignEntryType),
      sampleSigned), (.obj sampleStatement.wireDict, sampleWire)]

private def signedLib : CountersignLib := sampleLib signedTable sampleKey (refSign sampleSigned) sampleSigned

private def signedBundle : Bundle signedLib := ⟨[], text "aa", rfl⟩

private def signedEnv : Env := refEnv [] [] fun _ _ _ _ _ => true

private def sampleAuthority : Authority signedEnv where
  publicKey := sampleKey
  length_publicKey := rfl
  length_sign m := by
    change (refSign m).length = 64
    rw [refSign, List.length_append, Digest.length_bytes]

private theorem jcs_signedLib : signedLib.jcs = tableJcs signedTable := rfl

private theorem digest_signedBundle : signedBundle.digest = text "aa" := rfl

private theorem signer_sample : authoritySigner sampleAuthority (text "did:web:example") = sampleSigner := rfl

private theorem signingStrings_sample : signingStrings signedBundle sampleStatement
    (authoritySigner sampleAuthority (text "did:web:example")) = .ok (sampleSigned, sampleWire) := by
  have hinput : countersignSigningInput signedLib.jcs signedBundle.digest
      (authoritySigner sampleAuthority (text "did:web:example")) (.obj sampleStatement.wireDict)
      (.str countersignEntryType) = .ok sampleSigned := by
    rw [jcs_signedLib, digest_signedBundle, signer_sample]
    exact tableJcs_head _ _ _
  have hwire : sampleStatement.canonicalBytes signedLib = .ok sampleWire := by
    rw [Statement.canonicalBytes, jcs_signedLib, signedTable, tableJcs_tail (same_of_name_ne (by decide) _ _ _ _),
      tableJcs_head]
  simp only [signingStrings, hinput, hwire]
  rfl

private theorem jcsInjective_signedLib : JcsInjective signedLib.jcs := by
  intro a b bytes ha hb key
  have hdiffer : sampleSigned ≠ sampleWire := by simp [sampleSigned, sampleWire]
  have hrows := mem_of_tableJcs ha
  have hrows' := mem_of_tableJcs hb
  simp only [signedTable, List.mem_cons, Prod.mk.injEq, List.not_mem_nil, or_false] at hrows hrows'
  rcases hrows with ⟨hobj, rfl⟩ | ⟨hobj, rfl⟩ <;> rcases hrows' with ⟨hobj', hbytes⟩ | ⟨hobj', hbytes⟩
  · rw [← hobj'] at hobj
    rw [JsonValue.obj.inj hobj]
  · exact (hdiffer hbytes).elim
  · exact (hdiffer hbytes.symm).elim
  · rw [← hobj'] at hobj
    rw [JsonValue.obj.inj hobj]

private theorem sameSigned_independent (entry : Members) (independent : JsonValue) :
    SameSigned entry ((text "independent", independent) :: entry) := by
  refine ⟨?_, List.mem_cons_self⟩
  intro key hkey
  simp only [List.mem_cons, List.not_mem_nil, or_false] at hkey
  rcases hkey with rfl | rfl | rfl | rfl <;> rfl

private theorem keyVerdict_sample :
    keyVerdict sampleProducers sampleDirectory (hexText sampleAuthority.publicKey) = .countersigned := by
  have hkey : hexText sampleAuthority.publicKey = hexText sampleKey := rfl
  rw [hkey, keyVerdict, if_neg sampleKey_listed.1, if_neg (not_not.2 sampleKey_listed.2)]

private theorem sign_sample : ∃ entry, (signCountersignature (b := .memory) signedEnv {} (fun _ => ⟨0, 0⟩) sampleAuthority
    signedBundle sampleStatement (text "did:web:example") [] ⟨{}, []⟩).1 = .ok entry := by
  have hsize : (signedEnv.sha256 sampleWire).bytes.length ≤ maxStatementBytes := by
    rw [Digest.length_bytes]
    decide
  obtain ⟨reg, s', hregister, -⟩ := registers_raw signedEnv {} (fun _ => ⟨0, 0⟩) indexed_nil rfl hsize
    (s := {}) rfl
  rw [signCountersignature_of_registered signingStrings_sample hregister []]
  exact ⟨_, rfl⟩

private theorem signsOnly_sample : SignsOnly signedLib sampleAuthority sampleSigned := by
  intro key m
  change decide (key = sampleKey ∧ refSign sampleSigned = refSign sampleSigned ∧ m = sampleSigned) = true ↔ _
  simp only [true_and, decide_eq_true_eq]
  rfl

/-- The entry that a fresh service signs for a producer with another key is countersigned, and stays so when it is called
dependent. -/
theorem countersignature_round_trip_sample : ∃ entry,
    (signCountersignature (b := .memory) signedEnv {} (fun _ => ⟨0, 0⟩) sampleAuthority signedBundle sampleStatement
      (text "did:web:example") [] ⟨{}, []⟩).1 = .ok entry ∧
    verifyEntry signedBundle (.obj entry) sampleProducers sampleDirectory = .ok .countersigned ∧
    verifyEntry signedBundle (.obj ((text "independent", .bool false) :: entry)) sampleProducers sampleDirectory =
      .ok .countersigned := by
  obtain ⟨entry, hentry⟩ := sign_sample
  have hexact : ∀ message bytes, signingStrings signedBundle sampleStatement
      (authoritySigner sampleAuthority (text "did:web:example")) = .ok (message, bytes) →
      SignsOnly signedLib sampleAuthority message := by
    intro message bytes hstrings
    rw [signingStrings_sample] at hstrings
    obtain rfl := (Prod.mk.inj (Except.ok.inj hstrings)).1
    exact signsOnly_sample
  obtain ⟨hverdict, -, hsame⟩ := countersignature_round_trip sampleProducers sampleDirectory jcsInjective_signedLib hexact
    hentry
  rw [keyVerdict_sample] at hverdict
  exact ⟨entry, hentry, hverdict, (hsame _ (sameSigned_independent entry _)).trans hverdict⟩

end CapsuleAnchor

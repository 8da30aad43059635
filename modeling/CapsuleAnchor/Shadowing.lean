import CapsuleAnchor.CheckpointWire

/-!
# The entry that a JSON checkpoint resolves to

`_extract_log_id` scans the enrolled JSON submitters in order, and takes the first whose own `log_id` is under its own
name for that field.  The names of an entry are distinct, but a name of one entry may be another field's name in another.
So a checkpoint can resolve to an entry that is enrolled before its submitter's, and is then refused.

`json_checkpoint_resolves_iff`: a signed checkpoint is returned, with the grade of its entry, exactly when no entry before
that reads its own `log_id` in it.
-/

namespace CapsuleAnchor

/-- `Ed25519PublicKey.from_public_bytes` makes a key of what a signature verifies under; a signature has 64 bytes. -/
structure Ed25519Laws (W : Wire) : Prop where
  key : ∀ key signature message, W.ed25519Verify key signature message = true → W.keyError key = none
  length : ∀ key signature message, W.ed25519Verify key signature message = true → signature.length = 64

/-- The entry finds its own `log_id` in the object. -/
def ReadsLogId (obj : List (String × Json)) (found : SubmitterEntry × FieldMap) : Prop :=
  Json.get obj (found.2.get .logId) = some (.str found.1.logId)

namespace SubmitterAllowlist

/-- The JSON entries that are scanned before that of a `log_id`. -/
def scannedBefore (allowlist : SubmitterAllowlist) (logId : String) : List (SubmitterEntry × FieldMap) :=
  allowlist.jsonEntries.takeWhile fun found => found.1.logId ≠ logId

theorem wireForm_of_jsonEntries {allowlist : SubmitterAllowlist} {entry : SubmitterEntry} {fieldMap : FieldMap}
    (h : (entry, fieldMap) ∈ allowlist.jsonEntries) : entry.wireForm = .jsonEd25519 fieldMap := by
  obtain ⟨e, -, hform⟩ := List.mem_filterMap.1 h
  split at hform
  · cases hform
  · rename_i hwire
    obtain ⟨rfl, rfl⟩ := Prod.mk.inj (Option.some.inj hform)
    exact hwire

/-- A `log_id` has one JSON entry. -/
theorem jsonEntries_unique {allowlist : SubmitterAllowlist} {found found' : SubmitterEntry × FieldMap}
    (h : found ∈ allowlist.jsonEntries) (h' : found' ∈ allowlist.jsonEntries) (hlog : found.1.logId = found'.1.logId) :
    found = found' := by
  obtain ⟨entry, fieldMap⟩ := found
  obtain ⟨entry', fieldMap'⟩ := found'
  have hget := get_of_mem (mem_of_jsonEntries h)
  have hget' := get_of_mem (mem_of_jsonEntries h')
  obtain rfl : entry = entry' := by
    rw [show entry.logId = entry'.logId from hlog, hget'] at hget
    exact (Option.some.inj hget).symm
  have hwire := wireForm_of_jsonEntries h
  rw [wireForm_of_jsonEntries h'] at hwire
  rw [WireForm.jsonEd25519.inj hwire]

end SubmitterAllowlist

/-- The first element that satisfies `P` is the only one with its key, if it satisfies `P` and none before it does. -/
private theorem find?_eq_some_iff_takeWhile {α κ : Type} [DecidableEq κ] (key : α → κ) (P : α → Bool) {l : List α} {a : α}
    (ha : a ∈ l) (hP : P a = true) (hunique : ∀ b ∈ l, key b = key a → b = a) :
    l.find? P = some a ↔ ∀ b ∈ l.takeWhile (fun b => key b ≠ key a), ¬ P b = true := by
  induction l with
  | nil => cases ha
  | cons b l ih =>
    by_cases hkey : key b = key a
    · rw [hunique b List.mem_cons_self hkey]
      simp [hP]
    · have hne : b ≠ a := fun h => hkey (by rw [h])
      have hmem : a ∈ l := (List.mem_cons.1 ha).resolve_left fun h => hne h.symm
      have hrest := ih hmem fun c hc => hunique c (List.mem_cons_of_mem _ hc)
      rw [List.takeWhile_cons_of_pos (by simpa using hkey), List.forall_mem_cons, ← hrest]
      by_cases hb : P b = true
      · rw [List.find?_cons_of_pos hb]
        constructor
        · intro h
          exact absurd (Option.some.inj h) hne
        · rintro ⟨hnot, -⟩
          exact absurd hb hnot
      · rw [List.find?_cons_of_neg hb]
        exact ⟨fun h => ⟨hb, h⟩, fun h => h.2⟩

/-- What `_extract_log_id` looks for. -/
private def readsLogId (obj : List (String × Json)) : SubmitterEntry × FieldMap → Bool := fun (entry, fieldMap) =>
  match Json.get obj (fieldMap.get .logId) with
  | some (.str s) => s = entry.logId
  | _ => false

/-- The entry is found if it reads its own `log_id` and no entry before it does. -/
private theorem extractLogId_eq_iff {obj : List (String × Json)} {allowlist : SubmitterAllowlist}
    {found : SubmitterEntry × FieldMap} (hfound : found ∈ allowlist.jsonEntries) (hreads : ReadsLogId obj found) :
    extractLogId obj allowlist = .ok found ↔
      ∀ other ∈ allowlist.scannedBefore found.1.logId, ¬ ReadsLogId obj other := by
  obtain ⟨P, hP⟩ : ∃ P, P = readsLogId obj := ⟨_, rfl⟩
  have hreadsIff : ∀ other, P other = true ↔ ReadsLogId obj other := by
    intro other
    rw [hP, ReadsLogId]
    simp only [readsLogId]
    split
    · rename_i hget
      simp [hget]
    · rename_i hnot
      constructor
      · intro hfalse
        cases hfalse
      · intro hget
        exact absurd hget (hnot _)
  have hfirst := find?_eq_some_iff_takeWhile (fun other : SubmitterEntry × FieldMap => other.1.logId) P hfound
    ((hreadsIff found).2 hreads) fun other hother hlog => SubmitterAllowlist.jsonEntries_unique hother hfound hlog
  simp only [hreadsIff] at hfirst
  rw [SubmitterAllowlist.scannedBefore, ← hfirst]
  unfold extractLogId
  split
  · rename_i other hother
    have hfind : allowlist.jsonEntries.find? P = some other := by
      rw [hP]
      exact hother
    rw [hfind]
    simp
  · rename_i hother
    have hfind : allowlist.jsonEntries.find? P = none := by
      rw [hP]
      exact hother
    rw [hfind]
    constructor
    · intro h
      cases h
    · intro h
      cases h

/-- A checkpoint that the pinned key signed, under the names of its entry, is returned exactly when no entry that is
scanned before reads its own `log_id` in it. -/
theorem json_checkpoint_resolves_iff {E : Env} {texts : Texts} {W : Wire} (hlaws : Ed25519Laws W)
    {allowlist : SubmitterAllowlist} {entry : SubmitterEntry} {fieldMap : FieldMap}
    (hentry : (entry, fieldMap) ∈ allowlist.jsonEntries) {cp : Checkpoint} (hwell : cp.WellFormed)
    (hlog : cp.logId = entry.logId) {signature : Bytes}
    (hsigned : W.ed25519Verify entry.pubkey signature (ascii (checkpointDigest E cp).hex) = true) {body : Bytes}
    {obj : List (String × Json)} (hbody : W.jsonLoads body = .ok (.obj obj))
    (hread : ReadFromObject obj fieldMap cp signature) :
    parseAndVerifyCheckpointJson E texts W body allowlist = .ok (cp.gradedBy entry) ↔
      ∀ other ∈ allowlist.scannedBefore entry.logId, ¬ ReadsLogId obj other := by
  have hown : ReadsLogId obj (entry, fieldMap) := by
    rw [ReadsLogId, hread.logId, hlog]
  have hiff := extractLogId_eq_iff hentry hown
  constructor
  · intro hparsed
    obtain ⟨found, hresolved, hfound⟩ := logId_of_parseJson hbody hparsed
    have hmem := mem_of_extractLogId hresolved
    obtain rfl := SubmitterAllowlist.jsonEntries_unique hmem hentry (hfound.symm.trans hlog)
    exact hiff.1 hresolved
  · intro hnone
    have hlength := hlaws.length _ _ _ hsigned
    have hne : signature ≠ [] := by
      rintro rfl
      cases hlength
    exact parseJson_of_resolved hbody (hiff.2 hnone) hread hwell hlog hne (hlaws.key _ _ _ hsigned) hsigned

private def registrySubmitters : List Json :=
  [.obj [("log_id", .str "ops-key"), ("pubkey_hex", .str (bytesHex (List.replicate 32 9))),
    ("wire_form", .str "json-ed25519"), ("field_map", .obj [("log_id", .str "key_id"), ("key_id", .str "signer")])],
  .obj [("log_id", .str "log-b"), ("pubkey_hex", .str (bytesHex (List.replicate 32 5))),
    ("wire_form", .str "json-ed25519")]]

private def registryMap : FieldMap := ⟨CheckpointField.name, CheckpointField.name_distinct⟩

private def renamedMap : FieldMap :=
  ⟨Function.update (Function.update CheckpointField.name .logId "key_id") .keyId "signer", by decide⟩

private def renamingEntry : SubmitterEntry where
  logId := "ops-key"
  pubkey := List.replicate 32 9
  accumulator := .foreign
  rateLimitPerMin := 60
  wireForm := .jsonEd25519 renamedMap
  logId_ne := by decide
  length_pubkey := by decide

private def registryEntry : SubmitterEntry where
  logId := "log-b"
  pubkey := List.replicate 32 5
  accumulator := .foreign
  rateLimitPerMin := 60
  wireForm := .jsonEd25519 registryMap
  logId_ne := logB_ne
  length_pubkey := by decide

private def registryAllowlist : SubmitterAllowlist := ⟨[renamingEntry, registryEntry], by decide⟩

private def noTexts : Texts := ⟨fun _ => "", fun _ => "", fun _ => "", fun _ => "", fun _ => ""⟩

private abbrev registryEnv : Env := refEnv [] [] fun _ _ _ _ _ => false

private theorem registry_loads : SubmitterAllowlist.fromList registryEnv noTexts registrySubmitters =
    .ok registryAllowlist := by
  rfl

private def registryRoot : Digest := filledDigest 1

private def registryCheckpoint (keyId : String) : Checkpoint where
  v := 1
  kind := "mmr_checkpoint"
  logId := "log-b"
  mmrSize := 7
  root := registryRoot
  prevSize := 0
  prevRoot := none
  keyId := keyId
  timestamp := "2026-08-27T00:00:00Z"
  grade := none
  consistencyProof := none
  prevSize_lt := pos_seven

private def registrySignature : Bytes := List.replicate 64 3

/-- The root is written in upper case. -/
private def registryObject (keyId : String) : List (String × Json) :=
  [("v", .int 1), ("kind", .str "mmr_checkpoint"), ("log_id", .str "log-b"), ("mmr_size", .int 7),
    ("root", .str registryRoot.hex.toUpper), ("prev_size", .int 0), ("prev_root", .str ""), ("key_id", .str keyId),
    ("timestamp", .str "2026-08-27T00:00:00Z"), ("signature", .str (bytesHex registrySignature))]

/-- Bytes that stand for the text of an object. -/
private def registryWire : Wire where
  strictDecode _ := .error "not CBOR"
  parseSignedStatement _ _ := none
  keyError _ := none
  ed25519Verify key signature message :=
    key == registryEntry.pubkey && signature == registrySignature &&
      [ascii (checkpointDigest registryEnv (registryCheckpoint "ops-key")).hex,
        ascii (checkpointDigest registryEnv (registryCheckpoint "other")).hex].contains message
  jsonLoads body :=
    if body = ascii "ops-key" then .ok (.obj (registryObject "ops-key"))
    else if body = ascii "other" then .ok (.obj (registryObject "other"))
    else .error .jsonDecodeError
  otherTruthy := true

private theorem registryWire_laws : Ed25519Laws registryWire where
  key _ _ _ _ := rfl
  length := by
    intro key signature message h
    simp only [registryWire, Bool.and_eq_true, beq_iff_eq] at h
    rw [h.1.2]
    exact List.length_replicate

private theorem registry_loadsFirst :
    registryWire.jsonLoads (ascii "ops-key") = .ok (.obj (registryObject "ops-key")) := by
  simp only [registryWire, if_true]

private theorem registry_read (keyId : String) :
    ReadFromObject (registryObject keyId) registryMap (registryCheckpoint keyId) registrySignature where
  v := rfl
  kind := rfl
  logId := rfl
  mmrSize := rfl
  root := ⟨_, rfl, show Digest.ofHex? registryRoot.hex.toUpper = some registryRoot by decide +kernel⟩
  prevSize := rfl
  prevRoot := ⟨"", rfl, .inl ⟨rfl, rfl⟩⟩
  keyId := rfl
  timestamp := rfl
  signature := ⟨_, rfl, by decide +kernel⟩

private theorem registry_wellFormed {keyId : String} (h : keyId ≠ "") : (registryCheckpoint keyId).WellFormed where
  v := le_refl 1
  kind := rfl
  keyId := h
  timestamp := by
    intro htext
    simp [registryCheckpoint] at htext
  prevRoot := by
    intro hpos
    cases hpos

private theorem registry_signed {keyId : String} (h : keyId ∈ ["ops-key", "other"]) :
    registryWire.ed25519Verify registryEntry.pubkey registrySignature
      (ascii (checkpointDigest registryEnv (registryCheckpoint keyId)).hex) = true := by
  simp only [registryWire, beq_self_eq_true, Bool.true_and, List.contains_iff_mem]
  rcases List.mem_cons.1 h with rfl | h
  · exact List.mem_cons_self
  · obtain rfl := List.mem_singleton.1 h
    exact List.mem_cons_of_mem _ List.mem_cons_self

/-- A checkpoint whose `key_id` is the `log_id` of an entry that reads its `log_id` there resolves to that entry. -/
theorem json_submitters_shadow : ¬ ∀ (E : Env) (texts : Texts) (W : Wire), Ed25519Laws W →
    ∀ (raw : List Json) (allowlist : SubmitterAllowlist), SubmitterAllowlist.fromList E texts raw = .ok allowlist →
    ∀ entry fieldMap, (entry, fieldMap) ∈ allowlist.jsonEntries →
    ∀ (cp : Checkpoint) (signature : Bytes), cp.WellFormed → cp.logId = entry.logId →
    W.ed25519Verify entry.pubkey signature (ascii (checkpointDigest E cp).hex) = true →
    ∀ body obj, W.jsonLoads body = .ok (.obj obj) → ReadFromObject obj fieldMap cp signature →
    parseAndVerifyCheckpointJson E texts W body allowlist = .ok (cp.gradedBy entry) := by
  intro h
  have hparsed := h registryEnv noTexts registryWire registryWire_laws registrySubmitters registryAllowlist
    registry_loads registryEntry registryMap (List.mem_cons_of_mem _ List.mem_cons_self) (registryCheckpoint "ops-key")
    registrySignature (registry_wellFormed (by decide)) rfl (registry_signed List.mem_cons_self) (ascii "ops-key")
    (registryObject "ops-key") registry_loadsFirst (registry_read "ops-key")
  have hrefused : parseAndVerifyCheckpointJson registryEnv noTexts registryWire (ascii "ops-key") registryAllowlist ≠
      .ok ((registryCheckpoint "ops-key").gradedBy registryEntry) := by
    decide +kernel
  exact hrefused hparsed

/-- The same checkpoint under another `key_id` is returned. -/
theorem json_checkpoint_resolves_iff_sample :
    parseAndVerifyCheckpointJson registryEnv noTexts registryWire (ascii "other") registryAllowlist =
      .ok ((registryCheckpoint "other").gradedBy registryEntry) := by
  have hother : ascii "other" ≠ ascii "ops-key" := by decide +kernel
  have hmem : "other" ∈ ["ops-key", "other"] := List.mem_cons_of_mem _ List.mem_cons_self
  refine (json_checkpoint_resolves_iff registryWire_laws (List.mem_cons_of_mem _ List.mem_cons_self)
    (registry_wellFormed (by decide)) rfl (registry_signed hmem) ((if_neg hother).trans (if_pos rfl))
    (registry_read "other")).2 ?_
  intro found hfound hreads
  have hscanned : registryAllowlist.scannedBefore "log-b" = [(renamingEntry, renamedMap)] := rfl
  rw [show registryEntry.logId = "log-b" from rfl, hscanned] at hfound
  obtain rfl := List.mem_singleton.1 hfound
  have htext := Json.str.inj (Option.some.inj hreads)
  revert htext
  decide +kernel

end CapsuleAnchor

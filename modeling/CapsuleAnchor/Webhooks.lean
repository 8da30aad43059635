import CapsuleAnchor.Countersign

/-!
# The address of a webhook (`countersign/webhooks.py`)

The check that a webhook URL passes when it is submitted and again before each delivery: its scheme, its host, and every
address that the host resolves to.  A resolver may answer each call differently, so what it answers is an argument.
-/

namespace CapsuleAnchor

/-- What is read of the result of `urlparse`. -/
structure UrlParts where
  scheme : Text
  hostname : Option Text
  /-- The property `port`; it raises on a port that is no number or out of range. -/
  port : Except Raised (Option Nat)

/-- What `socket.getaddrinfo` comes to. -/
inductive Resolution
  | addresses (rawIps : List Text)
  | gaierror (message : Text)
  /-- Another exception, such as that of a host name with no IDNA form. -/
  | raised

/-- The standard library, as far as a webhook URL meets it. -/
structure WebhookLib where
  Ip : Type
  /-- `urllib.parse.urlparse`. -/
  urlparse : Text → Except Raised UrlParts
  /-- `ipaddress.ip_address`. -/
  ipAddress : Text → Except Raised Ip
  /-- `_is_blocked_ip`. -/
  isBlockedIp : Ip → Bool
  /-- `str` of an address. -/
  ipText : Ip → Text
  /-- `str.strip`. -/
  strip : Text → Text
  /-- `str.lower`. -/
  lower : Text → Text
  /-- `repr` of a string. -/
  repr : Text → Text

inductive WebhookError
  /-- `WebhookURLRefused`. -/
  | refused (message : Text)
  /-- Any other exception. -/
  | raised

/-- `str.split(sep)`, for a separator of one character. -/
def Text.split (sep : CodePoint) (t : Text) : List Text := t.splitOnP (· == sep)

variable (W : WebhookLib)

/-- `_allowed_hosts`, of the value of the environment variable. -/
def allowedHosts (raw : Option Text) : Option (List Text) :=
  match raw with
  | none | some [] => none
  | some raw => some (((raw.split (charCodePoint ',')).filter fun h => W.strip h ≠ []).map fun h => W.lower (W.strip h))

/-- The part before a scope id. -/
def unscoped (rawIp : Text) : Text := rawIp.takeWhile (· ≠ charCodePoint '%')

/-- The loop of `_resolve_and_check`. -/
def checkAddresses (host : Text) : List Text → Except WebhookError Unit
  | [] => .ok ()
  | rawIp :: rest =>
    match W.ipAddress (unscoped rawIp) with
    | .error _ => .error .raised
    | .ok ip =>
      if W.isBlockedIp ip then
        .error (.refused (text "host " ++ W.repr host ++ text " resolves to a blocked address (" ++ W.ipText ip ++
          text ") -- loopback, link-local, metadata, and RFC1918/ULA private ranges are refused"))
      else checkAddresses host rest

/-- `_resolve_and_check`, at what the host resolves to. -/
def resolveAndCheck (host : Text) (resolution : Resolution) : Except WebhookError (List Text) :=
  match resolution with
  | .raised => .error .raised
  | .gaierror message => .error (.refused (text "host " ++ W.repr host ++ text " does not resolve: " ++ message))
  | .addresses rawIps =>
    if rawIps.isEmpty then .error (.refused (text "host " ++ W.repr host ++ text " resolved to no addresses"))
    else do
      checkAddresses W host rawIps
      return rawIps.map unscoped

/-- `_validate_and_pin`: the host, the address to dial and the port. -/
def validateAndPin (allowed : Option Text) (resolve : Text → Resolution) (url : Text) :
    Except WebhookError (Text × Text × Nat) :=
  match W.urlparse url with
  | .error _ => .error .raised
  | .ok parsed =>
    if parsed.scheme ≠ text "https" then
      .error (.refused (text "webhook_url must use https (got " ++ W.repr parsed.scheme ++ text ")"))
    else
      let host := parsed.hostname.getD []
      if host = [] then .error (.refused (text "webhook_url has no host"))
      else if (allowedHosts W allowed).any fun hosts => decide (W.lower host ∉ hosts) then
        .error (.refused (text "host " ++ W.repr host ++ text " is not on the configured webhook allowlist"))
      else
        match resolveAndCheck W host (resolve host) with
        | .error e => .error e
        | .ok ips =>
          match parsed.port with
          | .error _ => .error .raised
          -- `parsed.port or 443`
          | .ok port => .ok (host, ips.headD [], if port.getD 0 = 0 then 443 else port.getD 0)

/-- `validate_webhook_url`. -/
def validateWebhookUrl (allowed : Option Text) (resolve : Text → Resolution) (url : Text) : Except WebhookError Unit :=
  (validateAndPin W allowed resolve url).map fun _ => ()

/-! ### What is accepted -/

theorem checkAddresses_ok {host : Text} {rawIps : List Text} :
    checkAddresses W host rawIps = .ok () ↔
      ∀ rawIp ∈ rawIps, ∃ ip, W.ipAddress (unscoped rawIp) = .ok ip ∧ W.isBlockedIp ip = false := by
  induction rawIps with
  | nil => simp [checkAddresses]
  | cons rawIp rest ih =>
    rw [checkAddresses, List.forall_mem_cons]
    cases hip : W.ipAddress (unscoped rawIp) with
    | error e => simp
    | ok ip =>
      by_cases hblocked : W.isBlockedIp ip = true
      · simp [hblocked]
      · simp [hblocked, ih]

/-- Every address of the resolution is allowed, and there is one. -/
def Unblocked (resolution : Resolution) (rawIps : List Text) : Prop :=
  resolution = .addresses rawIps ∧ rawIps ≠ [] ∧
    ∀ rawIp ∈ rawIps, ∃ ip, W.ipAddress (unscoped rawIp) = .ok ip ∧ W.isBlockedIp ip = false

theorem resolveAndCheck_ok {host : Text} {resolution : Resolution} {ips : List Text}
    (h : resolveAndCheck W host resolution = .ok ips) :
    ∃ rawIps, Unblocked W resolution rawIps ∧ ips = rawIps.map unscoped := by
  unfold resolveAndCheck at h
  split at h
  · cases h
  · cases h
  · rename_i rawIps
    split at h
    · cases h
    · rename_i hne
      cases hcheck : checkAddresses W host rawIps with
      | error e =>
        rw [hcheck] at h
        cases h
      | ok u =>
        rw [hcheck] at h
        have hips : rawIps.map unscoped = ips := Except.ok.inj h
        exact ⟨rawIps, ⟨rfl, by simpa using hne, (checkAddresses_ok W).1 hcheck⟩, hips.symm⟩

/-- The host of a URL that passes is named by it and on the allowlist, and the address to dial is the first of those it
resolved to, all of which are allowed. -/
theorem validateAndPin_ok {allowed : Option Text} {resolve : Text → Resolution} {url host ip : Text} {port : Nat}
    (h : validateAndPin W allowed resolve url = .ok (host, ip, port)) :
    (∃ parsed, W.urlparse url = .ok parsed ∧ parsed.scheme = text "https" ∧ parsed.hostname = some host) ∧
      (∀ hosts, allowedHosts W allowed = some hosts → W.lower host ∈ hosts) ∧
      ∃ rawIps, Unblocked W (resolve host) rawIps ∧ rawIps.head?.map unscoped = some ip := by
  unfold validateAndPin at h
  split at h
  · cases h
  rename_i parsed hparsed
  split at h
  · cases h
  rename_i hscheme
  simp only at h
  split at h
  · cases h
  rename_i hhost
  split at h
  · cases h
  rename_i hallowed
  split at h
  · cases h
  rename_i ips hips
  split at h
  · cases h
  rename_i port' hport
  obtain ⟨rfl, rfl, -⟩ : parsed.hostname.getD [] = host ∧ ips.headD [] = ip ∧ _ := by
    simpa only [Except.ok.injEq, Prod.mk.injEq] using h
  obtain ⟨rawIps, hunblocked, rfl⟩ := resolveAndCheck_ok W hips
  refine ⟨⟨parsed, hparsed, not_not.1 hscheme, ?_⟩, ?_, rawIps, hunblocked, ?_⟩
  · cases hname : parsed.hostname with
    | none => exact (hhost (by rw [hname]; rfl)).elim
    | some name => rfl
  · intro hosts hhosts
    simpa [hhosts] using hallowed
  · obtain ⟨rawIp, rest, rfl⟩ := List.exists_cons_of_ne_nil hunblocked.2.1
    rfl

end CapsuleAnchor

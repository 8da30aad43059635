import CapsuleAnchor.Purposes
import CapsuleAnchor.Webhooks

/-!
# The delivery of a webhook (`countersign/webhooks.py`)

`deliver_webhook` tries once and then on a schedule until a response is 2xx.  Every attempt of the default poster checks
the URL again, against the allowlist and a resolution of that moment, and dials the address that it resolved to; a
redirect is a status like any other.  What each attempt meets is an argument: `moments i` is what attempt `i` finds.
-/

namespace CapsuleAnchor

/-- The standard library, as far as a delivery meets it beyond the check of the URL. -/
structure DeliveryLib extends WebhookLib where
  /-- The path and the query of `urllib.parse.urlparse`. -/
  urlTarget : Text → Text × Text
  /-- `json.dumps(payload, sort_keys=True, separators=(",", ":")).encode("utf-8")`. -/
  dumps : Members → Except Raised Bytes
  /-- `hmac.new(key, message, hashlib.sha256).digest()`. -/
  hmacSha256 : Bytes → Bytes → Bytes

/-! ### One attempt -/

/-- A request of `http.client`: `POST`, in this form. -/
structure HttpPost where
  path : Text
  body : Bytes
  headers : List (Text × Text)

/-- What comes of a request, of its response and of the read of that. -/
inductive Exchange
  | status (code : Int)
  | osError
  /-- An exception that is no `OSError`. -/
  | raised (e : Raised)

/-- What happens on a connection. -/
structure Connection where
  /-- Whether the request gets as far as `connect`. -/
  dials : Bool
  exchange : Exchange
  /-- `close` may raise. -/
  close : Except Raised Unit

/-- What an attempt finds: the variable with the allowlist, the resolver, the servers. -/
structure Moment where
  allowed : Option Text
  resolve : Text → Resolution
  /-- `_CONNECTION_FACTORY(host, ip, port, timeout)`, and what a request then meets. -/
  connect : Text → Text → Nat → Except Raised (HttpPost → Connection)

/-- A connection that is opened: `socket.create_connection` to the address, under the name of the host. -/
structure Dial where
  host : Text
  ip : Text
  port : Nat

/-- `path = parsed.path or "/"`, with the query. -/
def requestPath (target : Text × Text) : Text :=
  let path := if target.1 = [] then text "/" else target.1
  if target.2 = [] then path else path ++ text "?" ++ target.2

/-- `dict.setdefault`. -/
def setDefault (headers : List (Text × Text)) (name value : Text) : List (Text × Text) :=
  if (headers.lookup name).isSome then headers else headers ++ [(name, value)]

variable (L : DeliveryLib)

/-- `_default_http_post`, with the connections it opens. -/
def defaultHttpPost (moment : Moment) (url : Text) (body : Bytes) (headers : List (Text × Text)) :
    Except Raised Int × List Dial :=
  match validateAndPin L.toWebhookLib moment.allowed moment.resolve url with
  -- `WebhookURLRefused` is a failed attempt
  | .error (.refused _) => (.ok 0, [])
  | .error .raised => (.error .other, [])
  | .ok (host, ip, port) =>
    match moment.connect host ip port with
    | .error e => (.error e, [])
    | .ok respond =>
      let conn := respond ⟨requestPath (L.urlTarget url), body, setDefault headers (text "Host") host⟩
      let dials := if conn.dials then [⟨host, ip, port⟩] else []
      match conn.close with
      -- what `finally` raises replaces the result
      | .error e => (.error e, dials)
      | .ok () =>
        match conn.exchange with
        | .status code => (.ok code, dials)
        | .osError => (.ok 0, dials)
        | .raised e => (.error e, dials)

/-! ### The attempts of a delivery -/

/-- `_BACKOFF_SCHEDULE`, in seconds. -/
def backoffSchedule : List Nat := [1, 4, 16]

/-- `http_post`, at each of its calls. -/
abbrev Poster := Nat → Text → Bytes → List (Text × Text) → Except Raised Int × List Dial

structure WebhookSubscription where
  url : Text
  secret : Text

inductive DeliveryStatus
  | success
  | failed
deriving DecidableEq

structure WebhookDelivery where
  url : Text
  entryHash : Text
  attempts : Nat
  status : DeliveryStatus
  lastStatusCode : Option Int
  deliveredAt : Datetime

/-- What a delivery does. -/
inductive DeliveryEvent
  | slept (seconds : Nat)
  | attempted (i : Nat) (outcome : Except Raised Int) (dials : List Dial)

/-- The variables of the loop, and what happened so far. -/
structure Progress where
  lastStatus : Int := 0
  attempts : Nat := 0
  success : Bool := false
  events : List DeliveryEvent := []

/-- `200 <= last_status < 300`. -/
def Successful (status : Int) : Prop := 200 ≤ status ∧ status < 300

instance (status : Int) : Decidable (Successful status) := inferInstanceAs (Decidable (_ ∧ _))

/-- The status of an attempt: one that raised has the status 0. -/
def statusOf (outcome : Except Raised Int) : Int :=
  match outcome with
  | .ok status => status
  | .error _ => 0

/-- The loop over the attempts, of which `post i` is the outcome of number `i`. -/
def tryEach (post : Nat → Except Raised Int × List Dial) : List Nat → Progress → Progress
  | [], progress => progress
  | i :: rest, progress =>
    let slept := if 0 < i then [.slept (backoffSchedule.getD (i - 1) 0)] else []
    let progress : Progress :=
      { progress with
        attempts := progress.attempts + 1
        lastStatus := statusOf (post i).1
        events := progress.events ++ slept ++ [.attempted i (post i).1 (post i).2] }
    if Successful progress.lastStatus then { progress with success := true } else tryEach post rest progress

/-- `hmac_sign`; a secret with a surrogate has no UTF-8 form. -/
def hmacSign (body : Bytes) (secret : Text) : Except Raised Text :=
  match secret.encodeUtf8 with
  | none => .error (.valueError [])
  | some key => .ok (text "hmac-sha256=" ++ hexText (L.hmacSha256 key body))

/-- `deliver_webhook`, with what it does on the way; `httpPost` takes the place of the default poster. -/
def deliverWebhook (httpPost : Option Poster) (moments : Nat → Moment) (subscription : WebhookSubscription)
    (payload : Members) (entryHash : Text) (now : Datetime) : Except Raised (WebhookDelivery × List DeliveryEvent) := do
  let poster := httpPost.getD fun i => defaultHttpPost L (moments i)
  let body ← L.dumps payload
  let signature ← hmacSign L body subscription.secret
  let headers := [(text "Content-Type", text "application/json"), (text "X-Countersign-Signature", signature),
    (text "X-Countersign-Entry-Hash", entryHash)]
  let progress := tryEach (fun i => poster i subscription.url body headers)
    (List.range (backoffSchedule.length + 1)) {}
  return ({ url := subscription.url, entryHash, attempts := progress.attempts
            status := if progress.success then .success else .failed
            lastStatusCode := if progress.lastStatus = 0 then none else some progress.lastStatus
            deliveredAt := now }, progress.events)

/-! ### The attempts that are made -/

/-- The attempts of a delivery, with their outcomes and the connections they open. -/
def attemptsOf (events : List DeliveryEvent) : List (Nat × Except Raised Int × List Dial) :=
  events.filterMap fun
    | .slept _ => none
    | .attempted i outcome dials => some (i, outcome, dials)

theorem attemptsOf_append (events events' : List DeliveryEvent) :
    attemptsOf (events ++ events') = attemptsOf events ++ attemptsOf events' := List.filterMap_append

/-- The loop over `count` attempts from number `first` on made the first `made` of them. -/
structure Tried (post : Nat → Except Raised Int × List Dial) (first count : Nat) (before : Progress) (made : Nat)
    (after : Progress) : Prop where
  le : made ≤ count
  pos : 0 < count → 0 < made
  attempts : after.attempts = before.attempts + made
  events : attemptsOf after.events = attemptsOf before.events ++ (List.range' first made).map fun i => (i, post i)
  /-- Only the last one may have been accepted, and it was when not all were made. -/
  rejected : ∀ i, first ≤ i → i + 1 < first + made → ¬ Successful (statusOf (post i).1)
  stopped : made < count → Successful (statusOf (post (first + made - 1)).1)
  last : 0 < made → after.lastStatus = statusOf (post (first + made - 1)).1 ∧
    (after.success = true ↔ Successful (statusOf (post (first + made - 1)).1))

theorem tryEach_spec (post : Nat → Except Raised Int × List Dial) (first count : Nat) {before : Progress}
    (hbefore : before.success = false) :
    ∃ made, Tried post first count before made (tryEach post (List.range' first count) before) := by
  induction count generalizing first before with
  | zero =>
    refine ⟨0, le_refl 0, nofun, rfl, ?_, ?_, nofun, nofun⟩
    · simp [tryEach]
    · omega
  | succ count ih =>
    obtain ⟨after, hafter⟩ : ∃ after : Progress, after =
      { before with
        attempts := before.attempts + 1
        lastStatus := statusOf (post first).1
        events := before.events ++ (if 0 < first then [.slept (backoffSchedule.getD (first - 1) 0)] else []) ++
          [.attempted first (post first).1 (post first).2] } := ⟨_, rfl⟩
    have hstep : tryEach post (List.range' first (count + 1)) before =
        if Successful after.lastStatus then { after with success := true }
        else tryEach post (List.range' (first + 1) count) after := by
      rw [hafter, List.range'_succ, tryEach]
    have hattempts : after.attempts = before.attempts + 1 := by rw [hafter]
    have hstatus : after.lastStatus = statusOf (post first).1 := by rw [hafter]
    have hsuccess : after.success = false := by rw [hafter, hbefore]
    have hevents : attemptsOf after.events = attemptsOf before.events ++ [(first, post first)] := by
      rw [hafter]
      simp only [attemptsOf_append]
      split <;> simp [attemptsOf]
    rw [hstep]
    by_cases haccepted : Successful after.lastStatus
    · -- the loop stops here
      rw [if_pos haccepted]
      rw [hstatus] at haccepted
      refine ⟨1, by omega, fun _ => by omega, hattempts, hevents, ?_, ?_, ?_⟩
      · omega
      · exact fun _ => haccepted
      · exact fun _ => ⟨hstatus, by simp [haccepted]⟩
    · rw [if_neg haccepted]
      rw [hstatus] at haccepted
      obtain ⟨made, hmade⟩ := ih (first + 1) hsuccess
      refine ⟨made + 1, by have := hmade.le; omega, fun _ => by omega, ?_, ?_, ?_, ?_, ?_⟩
      · rw [hmade.attempts, hattempts]
        omega
      · rw [hmade.events, hevents, List.range'_succ]
        simp
      · intro i hi hlt
        by_cases hfirst : i = first
        · rwa [hfirst]
        · exact hmade.rejected i (by omega) (by omega)
      · intro hlt
        have hstopped := hmade.stopped (by omega)
        have hpos := hmade.pos (by omega)
        rwa [show first + (made + 1) - 1 = first + 1 + made - 1 by omega]
      · intro _
        rcases Nat.eq_zero_or_pos made with hnone | hpos
        · -- there was no attempt left
          subst hnone
          have hcount : count = 0 := by
            by_contra hcount
            exact absurd (hmade.pos (by omega)) (by omega)
          subst hcount
          simp [tryEach, hstatus, hsuccess, haccepted]
        · rw [show first + (made + 1) - 1 = first + 1 + made - 1 by omega]
          exact hmade.last hpos

/-! ### What is dialled -/

/-- The connection goes to the host that the URL names over https, which is on the allowlist, at the first address that
it resolved to in that moment; none of the addresses it resolved to is blocked. -/
def Vetted (W : WebhookLib) (url : Text) (moment : Moment) (dial : Dial) : Prop :=
  (∃ parsed, W.urlparse url = .ok parsed ∧ parsed.scheme = text "https" ∧ parsed.hostname = some dial.host) ∧
  (∀ hosts, allowedHosts W moment.allowed = some hosts → W.lower dial.host ∈ hosts) ∧
  ∃ rawIps, Unblocked W (moment.resolve dial.host) rawIps ∧ rawIps.head?.map unscoped = some dial.ip

/-- An attempt opens one connection at most, to a vetted address. -/
theorem defaultHttpPost_vetted (moment : Moment) (url : Text) (body : Bytes) (headers : List (Text × Text)) :
    (defaultHttpPost L moment url body headers).2.length ≤ 1 ∧
      ∀ dial ∈ (defaultHttpPost L moment url body headers).2, Vetted L.toWebhookLib url moment dial := by
  cases hpin : validateAndPin L.toWebhookLib moment.allowed moment.resolve url with
  | error e =>
    have hnone : (defaultHttpPost L moment url body headers).2 = [] := by
      rw [defaultHttpPost, hpin]
      cases e <;> rfl
    simp [hnone]
  | ok pinned =>
    obtain ⟨host, ip, port⟩ := pinned
    have hvetted : Vetted L.toWebhookLib url moment ⟨host, ip, port⟩ := validateAndPin_ok L.toWebhookLib hpin
    have hdials : (defaultHttpPost L moment url body headers).2 = [] ∨
        (defaultHttpPost L moment url body headers).2 = [⟨host, ip, port⟩] := by
      rw [defaultHttpPost, hpin]
      simp only
      split
      · exact .inl rfl
      · rename_i respond hrespond
        cases (respond ⟨requestPath (L.urlTarget url), body, setDefault headers (text "Host") host⟩).dials <;>
          split <;> try split
        all_goals simp
    rcases hdials with hdials | hdials
    · simp [hdials]
    · simp [hdials, hvetted]

private def plainDelivery : DeliveryLib where
  Ip := Text
  urlparse _ := .ok ⟨text "https", some (text "hook"), .ok none⟩
  ipAddress t := .ok t
  isBlockedIp ip := decide (ip = text "10.0.0.1")
  ipText ip := ip
  strip := id
  lower := Text.lower
  repr t := t
  urlTarget _ := ([], [])
  dumps _ := .ok [123, 125]
  hmacSha256 _ _ := []

/-- The host answers with a redirect, then resolves to a private address, then accepts. -/
private def rebinding (i : Nat) : Moment where
  allowed := some (text "hook")
  resolve _ := .addresses [if i = 1 then text "10.0.0.1" else text "9.9.9.9"]
  connect _ _ _ := .ok fun _ => ⟨true, .status (if i = 0 then 307 else 200), .ok ()⟩

private theorem rebinding_run :
    (deliverWebhook plainDelivery none rebinding ⟨[], []⟩ [] [] ⟨0, 0⟩).map (fun r => (r.1.attempts, r.1.status,
      (attemptsOf r.2).map fun a => a.2.2.map Dial.ip)) =
      .ok (3, .success, [[text "9.9.9.9"], [], [text "9.9.9.9"]]) := by
  decide +kernel

end CapsuleAnchor

import WazoWebhookd.Hook.Exchange
import WazoWebhookd.Hook.HttpService

/-! What the endpoint of an http hook is asked, over all attempts of its delivery. -/
namespace WazoWebhookd
open HttpService

structure Network where
  gethostbyname : String → Except String String
  request : RequestArgs → Sent

def HttpLibraries.on (libs : HttpLibraries) (network : Network) : HttpLibraries :=
  { libs with gethostbyname := network.gethostbyname, request := network.request }

/-- The config as the service takes it from the stored options. A content type that is there must
be a text. -/
def HttpSubscriptionConfigDict.ofConfig (config : StringDict) :
    Option HttpSubscriptionConfigDict := do
  pure {
    body := (config.lookup "body").join
    method := ← (config.lookup "method").join
    url := ← (config.lookup "url").join
    verifyCertificate := (config.lookup "verify_certificate").join
    contentType := ← (config.lookup "content_type").mapM id }

inductive Contact
  | failed (e : RunError)
  | refused
  | sent (args : RequestArgs) (answer : Sent)

/-- The class of the exception decides which clause takes it apart. -/
def TransportException.Retryable (loads : String → Except JsonLoadsError Json)
    (exc : TransportException) : Prop :=
  ∃ request, exc.request = some request ∧ request.Readable loads ∧
    (exc.cls.isHttpError = true → ∃ response, exc.getResponse = .ok (some response) ∧
      Parses loads response.text ∧ response.statusCode ≠ 410)

/-- The answers after which the request is sent again: a status of an error other than 410, and no
answer at all. Both sides must be readable for the log. -/
def Sent.Retryable (loads : String → Except JsonLoadsError Json) : Sent → Prop
  | .answered r => (400 ≤ r.statusCode ∧ r.statusCode < 600) ∧ r.statusCode ≠ 410 ∧
      r.request.body.Readable loads ∧ Parses loads r.text
  | .transport exc => exc.Retryable loads
  | .exception _ => False

namespace Contact

def Retryable (loads : String → Except JsonLoadsError Json) : Contact → Prop
  | .sent _ answer => answer.Retryable loads
  | _ => False

/-- What is logged as a success: a url that is refused, and an answer without a status of an error
when both sides are readable. -/
def Succeeds (loads : String → Except JsonLoadsError Json) : Contact → Prop
  | .refused => True
  | .sent _ (.answered r) => ¬ (400 ≤ r.statusCode ∧ r.statusCode < 600) ∧
      r.request.body.Readable loads ∧ Parses loads r.text
  | _ => False

def request : Contact → Option RequestArgs
  | .sent args _ => some args
  | _ => none

def Accepted : Contact → Prop
  | .sent _ (.answered r) => ¬ (400 ≤ r.statusCode ∧ r.statusCode < 600)
  | _ => False

end Contact

section Contact
variable (libs : HttpLibraries) (options : HttpSubscriptionConfigDict)
  (ownerUserUuid : Option String) (event : List (String × Json))

def contact : Contact :=
  match requestArgs libs options ownerUserUuid event with
  | .error e => .failed e
  | .ok none => .refused
  | .ok (some args) => .sent args (libs.request args)

variable {libs options ownerUserUuid event}

theorem outcome_isRetry_iff {ending : RunEnd} :
    (ending.outcome libs).IsRetry ↔ ∃ error detail, ending = .raised (.hookRetry error detail) := by
  cases ending with
  | returned detail => simp [RunEnd.outcome, HookOutcome.IsRetry]
  | failed e => simp [RunEnd.outcome, HookOutcome.IsRetry]
  | raised raised => cases raised <;> simp [RunEnd.outcome, HookOutcome.IsRetry]

theorem getRequest_eq_ok {exc : TransportException} {request : HttpRequest}
    (h : exc.request = some request) : exc.getRequest = .ok (some request) := by
  simp [TransportException.getRequest, h]

theorem statusClause_hookRetry_iff {loads : String → Except JsonLoadsError Json}
    {exc : TransportException} (hcls : exc.cls.isHttpError = true) :
    (∃ error detail, requestsAutomaticHookRetry loads exc = .hookRetry error detail) ↔
      exc.Retryable loads := by
  rw [requestsAutomaticHookRetry_of_status hcls]
  cases hrequest : exc.request with
  | none =>
    have hclause : (∃ e, statusClause loads exc = .error e) ∨
        statusClause loads exc = .ok (.valueError noRequestOrResponse) := by
      unfold statusClause TransportException.getRequest
      split_ifs
      · exact .inl ⟨_, rfl⟩
      · rw [hrequest]
        exact .inr rfl
    refine iff_of_false ?_ ?_
    · rintro ⟨error, detail, h⟩
      rcases hclause with ⟨e, he⟩ | hvalue
      · rw [he] at h
        cases h
      · rw [hvalue] at h
        cases h
    · rintro ⟨request, h, -⟩
      rw [hrequest] at h
      cases h
  | some request =>
    have hget := getRequest_eq_ok hrequest
    have hretryable : exc.Retryable loads ↔ request.Readable loads ∧
        ∃ response, exc.getResponse = .ok (some response) ∧ Parses loads response.text ∧
          response.statusCode ≠ 410 := by
      simp [TransportException.Retryable, hrequest, hcls]
    rw [hretryable]
    cases hresponse : exc.getResponse with
    | error e =>
      have hclause : statusClause loads exc = .error e := by
        unfold statusClause
        rw [hget, hresponse]
        rfl
      rw [hclause]
      exact iff_of_false (by simp) (by simp)
    | ok response? =>
      cases response? with
      | none =>
        have hclause : statusClause loads exc = .ok (.valueError noRequestOrResponse) := by
          unfold statusClause
          rw [hget, hresponse]
          rfl
        rw [hclause]
        exact iff_of_false (by simp) (by simp)
      | some response =>
        by_cases hreadable : request.Readable loads ∧ Parses loads response.text
        · obtain ⟨detail, hclause⟩ :=
            statusClause_readable hget hresponse hreadable.1 hreadable.2
          rw [hclause]
          by_cases hgone : response.statusCode = 410
          · simp [hgone]
          · simp [hgone, hreadable.1, hreadable.2]
        · obtain ⟨e, hclause⟩ := statusClause_unreadable hget hresponse hreadable
          rw [hclause]
          refine iff_of_false (by simp) ?_
          rintro ⟨hrequest, response', hsome, hparses, -⟩
          cases hsome
          exact hreadable ⟨hrequest, hparses⟩

theorem transportClause_hookRetry_iff {loads : String → Except JsonLoadsError Json}
    {exc : TransportException} (hcls : exc.cls.isHttpError = false) :
    (∃ error detail, requestsAutomaticHookRetry loads exc = .hookRetry error detail) ↔
      exc.Retryable loads := by
  have hretryable : exc.Retryable loads ↔
      ∃ request, exc.request = some request ∧ request.Readable loads := by
    simp [TransportException.Retryable, hcls]
  rw [requestsAutomaticHookRetry_of_transport hcls, hretryable]
  cases hrequest : exc.request with
  | none =>
    have hclause : ∃ e, transportClause loads exc = .error e := by
      unfold transportClause TransportException.getRequest
      split_ifs
      · exact ⟨_, rfl⟩
      · rw [hrequest]
        exact ⟨_, rfl⟩
    obtain ⟨e, he⟩ := hclause
    rw [he]
    exact iff_of_false (by simp) (by simp)
  | some request =>
    have hget := getRequest_eq_ok hrequest
    by_cases hreadable : request.Readable loads
    · obtain ⟨detail, hclause⟩ := transportClause_readable hget hreadable
      rw [hclause]
      exact iff_of_true ⟨_, _, rfl⟩ ⟨request, rfl, hreadable⟩
    · obtain ⟨e, hclause⟩ := transportClause_unreadable hget hreadable
      rw [hclause]
      refine iff_of_false (by simp) ?_
      rintro ⟨request', hsome, hreadable'⟩
      cases hsome
      exact hreadable hreadable'

theorem hookRetry_iff_retryable {loads : String → Except JsonLoadsError Json}
    {exc : TransportException} :
    (∃ error detail, requestsAutomaticHookRetry loads exc = .hookRetry error detail) ↔
      exc.Retryable loads := by
  cases hcls : exc.cls.isHttpError with
  | true => exact statusClause_hookRetry_iff hcls
  | false => exact transportClause_hookRetry_iff hcls

/-- The task retries exactly after such an answer. -/
theorem run_isRetry_iff :
    ((run libs options ownerUserUuid event).outcome libs).IsRetry ↔
      (contact libs options ownerUserUuid event).Retryable libs.loads := by
  rw [outcome_isRetry_iff]
  unfold run contact
  cases requestArgs libs options ownerUserUuid event with
  | error e => exact iff_of_false (by simp) id
  | ok args? =>
    cases args? with
    | none => exact iff_of_false (by simp) id
    | some args =>
      change _ ↔ (libs.request args).Retryable libs.loads
      dsimp only
      cases libs.request args with
      | exception message => exact iff_of_false (by simp) id
      | transport exc =>
        simp only [RunEnd.raised.injEq]
        exact hookRetry_iff_retryable
      | answered r =>
        dsimp only
        unfold raiseForStatus
        split_ifs with hstatus
        · simp only [RunEnd.raised.injEq]
          rw [hookRetry_iff_retryable]
          simp [TransportException.Retryable, Sent.Retryable, ExceptionClass.isHttpError, hstatus,
            TransportException.getResponse, ExceptionClass.hasResponse, HttpRequest.Readable,
            PreparedRequest.toHttpRequest]
          tauto
        · refine iff_of_false ?_ fun h => hstatus h.1
          cases requestsAutomaticDetail libs r <;> simp

theorem outcome_success_iff {ending : RunEnd} :
    (∃ detail, ending.outcome libs = .success detail) ↔ ∃ detail, ending = .returned detail := by
  cases ending with
  | returned detail => simp [RunEnd.outcome]
  | failed e => simp [RunEnd.outcome]
  | raised raised => cases raised <;> simp [RunEnd.outcome]

theorem run_success_iff :
    (∃ detail, (run libs options ownerUserUuid event).outcome libs = .success detail) ↔
      (contact libs options ownerUserUuid event).Succeeds libs.loads := by
  rw [outcome_success_iff]
  unfold run contact
  cases requestArgs libs options ownerUserUuid event with
  | error e => exact iff_of_false (by simp) id
  | ok args? =>
    cases args? with
    | none => exact iff_of_true ⟨none, rfl⟩ trivial
    | some args =>
      dsimp only
      cases libs.request args with
      | exception message => exact iff_of_false (by simp) id
      | transport exc => exact iff_of_false (by simp) id
      | answered r =>
        dsimp only
        unfold raiseForStatus
        split_ifs with hstatus
        · exact iff_of_false (by simp) fun h => h.1 hstatus
        · have hdetail : (∃ detail, requestsAutomaticDetail libs r = .ok detail) ↔
              r.request.body.Readable libs.loads ∧ Parses libs.loads r.text :=
            requestsAutomaticDetail_ok_iff
          change _ ↔ ¬ _ ∧ r.request.body.Readable libs.loads ∧ Parses libs.loads r.text
          rw [← hdetail]
          cases requestsAutomaticDetail libs r with
          | error e => exact iff_of_false (by simp) (by simp)
          | ok detail => exact iff_of_true ⟨_, rfl⟩ ⟨hstatus, detail, rfl⟩

theorem Contact.not_accepted {c : Contact} {loads : String → Except JsonLoadsError Json}
    (h : c.Retryable loads) : ¬ c.Accepted := by
  cases c with
  | failed e => exact id
  | refused => exact id
  | sent args answer =>
    cases answer with
    | answered r => exact fun haccepted => haccepted h.1
    | transport exc => exact id
    | exception message => exact id

end Contact

/-- The hook of the task is the http service, which finds a network of its own at each attempt. -/
structure HttpRuns (libs : HttpLibraries) (network : ℕ → Network)
    (options : HttpSubscriptionConfigDict) (event : List (String × Json))
    (world : String → ℕ → LoggedAttempt) (t : HookTask) : Prop where
  config : HttpSubscriptionConfigDict.ofConfig t.subscription.config = some options
  payload : t.event = .obj event
  outcome : ∀ i, (world t.hookUuid i).outcome =
    (run (libs.on (network i)) options t.subscription.ownerUserUuid event).outcome libs

section Delivery
variable (libs : HttpLibraries) (network : ℕ → Network) (options : HttpSubscriptionConfigDict)
  (event : List (String × Json)) (t : HookTask)

def contacts (i : ℕ) : Contact :=
  contact (libs.on (network i)) options t.subscription.ownerUserUuid event

variable {libs network options event t} {world : String → ℕ → LoggedAttempt}

theorem HttpRuns.tells (h : HttpRuns libs network options event world t) :
    Tells (Contact.Retryable libs.loads) (Contact.Succeeds libs.loads)
      (contacts libs network options event t) world t where
  retry_iff i := by
    rw [h.outcome i]
    exact run_isRetry_iff
  success_iff i := by
    rw [h.outcome i]
    exact run_success_iff

end Delivery

section Main
variable (serviceManager : String → Option EntryPoint) (config : HookConfig) (master : String)
  (world : String → ℕ → LoggedAttempt) {w : World} (hw : w.Serving master) (ls : List SystemStep)
  (hv : Run.Along (WebhookSystem.step serviceManager config master world)
    (WebhookSystem.Valid serviceManager config master) (.start w) ls)
include hw hv

end Main

end WazoWebhookd

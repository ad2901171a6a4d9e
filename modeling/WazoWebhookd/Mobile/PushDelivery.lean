import WazoWebhookd.Hook.HttpDelivery
import WazoWebhookd.Mobile.LegacyFcm
import WazoWebhookd.Mobile.PrivatePushes

/-! What the hook of the mobile service has to do with APNS and FCM, over all attempts of its
delivery. -/
namespace WazoWebhookd
open ExceptionClasses RaisedClass MobileService

/-- A request of `httpx`, whose content is there since it was made of a payload. -/
structure ApnsRequest where
  method : String
  url : String
  content : ByteArray
  headers : List (String × String)

/-- What comes of the post to APNS. The last case has the errors of `httpx` that the wrapper
cannot take apart. -/
inductive ApnsAnswer
  | answered (request : ApnsRequest) (response : HttpResponse)
  | transport (exc : TransportException)
  | exception (message : String)

def ApnsRequest.toHttpRequest (request : ApnsRequest) : HttpRequest where
  method := request.method
  url := request.url
  body := .httpx (some request.content)
  headers := request.headers

def HttpResponse.IsSuccess (response : HttpResponse) : Prop :=
  200 ≤ response.statusCode ∧ response.statusCode < 300

instance (response : HttpResponse) : Decidable response.IsSuccess :=
  inferInstanceAs (Decidable (_ ∧ _))

/-- Both `str` of the exceptions and what is used of `json`. -/
structure PushTexts where
  loads : String → Except JsonLoadsError Json
  strPush : PushError → String
  strFcm : FcmException → String
  strPython : PyError → String
  statusMessage : HttpResponse → String

section Apns
variable (texts : PushTexts)

def httpxStatusError (request : ApnsRequest) (response : HttpResponse) : TransportException where
  cls := .httpxHttpStatusError
  message := texts.statusMessage response
  request := some request.toHttpRequest
  response := some response
  response_eq_none := nofun

def raiseForHttpxStatus (request : ApnsRequest) (response : HttpResponse) :
    Option TransportException :=
  if response.IsSuccess then none else some (httpxStatusError texts request response)

def httpxAutomaticDetail (request : ApnsRequest) (response : HttpResponse) :
    Except PyError RequestDetails := do
  pure {
    requestMethod := request.method
    requestUrl := request.url
    requestBody := ← decode texts.loads (.bytes request.content)
    requestHeaders := request.headers
    responseStatusCode := some response.statusCode
    responseHeaders := response.headers
    responseBody := ← decode texts.loads (.text response.text) }

def FcmResponseDict.json (response : FcmResponseDict) : Json :=
  .obj [("multicast_ids", .arr response.multicastIds), ("success", .num response.success),
    ("failure", .num response.failure), ("canonical_ids", .num response.canonicalIds),
    ("results", .arr response.results), ("topic_message_id", response.topicMessageId)]

def sentStatus (success : Bool) (protocolUsed : String) (fullResponse : Json) : Json :=
  .obj [("success", .bool success), ("protocol_used", .str protocolUsed),
    ("full_response", fullResponse)]

/-- What leaves the wrapper around the post. -/
def Raised.pushOutcome : Raised → HookOutcome
  | .hookExpectedError error detail =>
    .hookExpectedError (.obj (("error", .str error) :: detail.fields))
  | .hookRetry error detail => .hookRetry (.obj (("error", .str error) :: detail.fields))
  | .valueError message => .exception message
  | .other e => .exception (texts.strPython e)

def ApnsAnswer.outcome : ApnsAnswer → HookOutcome
  | .exception message => .exception message
  | .transport exc => (requestsAutomaticHookRetry texts.loads exc).pushOutcome texts
  | .answered request response =>
    match raiseForHttpxStatus texts request response with
    | some exc => (requestsAutomaticHookRetry texts.loads exc).pushOutcome texts
    | none =>
      match httpxAutomaticDetail texts request response with
      | .ok detail => .success (sentStatus true "apns" (.obj detail.fields))
      | .error e => .exception (texts.strPython e)

end Apns

inductive PushContact
  | unaddressed
  | skipped
  | failed (e : PushError)
  | apns (message : ApnMessage) (answer : ApnsAnswer)
  | fcm (call : FcmCall) (answer : Except FcmException FcmResponseDict)

structure PushServices where
  externalData : String → Except PushError PushNotification
  apns : ApnMessage → ApnsAnswer
  fcm : FcmCall → Except FcmException FcmResponseDict
  formats : BusNotification.Formats

def pushContact (libs : PushLibraries) (services : PushServices) (event : MobileEvent) :
    PushContact :=
  if truthy event.eventsUserUuid = none then .unaddressed
  else
    match PushNotification.runMobile libs services.externalData services.formats event with
    | .error e => .failed e
    | .ok none => .skipped
    | .ok (some (.apns message)) => .apns message (services.apns message)
    | .ok (some (.fcm call)) => .fcm call (services.fcm call)

/-- The details of a `NotificationError` have the id of the error too. -/
def PushError.outcome (texts : PushTexts) : PushError → HookOutcome
  | .notificationError message =>
    .hookExpectedError (.obj [("message", .str message), ("error_id", .str "notification-error")])
  | e => .exception (texts.strPush e)

namespace PushContact
variable (texts : PushTexts)

/-- What the task that runs the hook sees of an attempt. -/
def outcome : PushContact → HookOutcome
  | .unaddressed => .hookExpectedError (.str "subscription doesn't have events_user_uuid set")
  | .skipped => .success .null
  | .failed e => e.outcome texts
  | .apns _ answer => answer.outcome texts
  | .fcm _ (.ok response) => .success (sentStatus (1 ≤ response.success) "fcm" response.json)
  | .fcm _ (.error e) =>
    if e.cls.Derives retryAfterExceptionClass then
      .hookRetry (.obj [("error", .str (texts.strFcm e))])
    else .exception (texts.strFcm e)

def message : PushContact → Option PushMessage
  | .apns message _ => some (.apns message)
  | .fcm call _ => some (.fcm call)
  | _ => none

variable (loads : String → Except JsonLoadsError Json)

/-- The answers after which the push is sent again: an error of APNS other than 410 that is
readable for the log, and the request of the FCM client to retry. -/
def Retryable : PushContact → Prop
  | .apns _ (.answered request response) => ¬ response.IsSuccess ∧ response.statusCode ≠ 410 ∧
      request.toHttpRequest.Readable loads ∧ Parses loads response.text
  | .apns _ (.transport exc) => exc.Retryable loads
  | .fcm _ (.error e) => e.cls.Derives retryAfterExceptionClass
  | _ => False

/-- What is logged as a success: a message that is not for the user, a success of APNS that is
readable for the log, and whatever FCM answers without an error. -/
def Succeeds : PushContact → Prop
  | .skipped => True
  | .apns _ (.answered request response) => response.IsSuccess ∧
      request.toHttpRequest.Readable loads ∧ Parses loads response.text
  | .fcm _ (.ok _) => True
  | _ => False

/-- APNS or FCM took the push. -/
def Accepted : PushContact → Prop
  | .apns _ (.answered _ response) => response.IsSuccess
  | .fcm _ (.ok response) => 1 ≤ response.success
  | _ => False

end PushContact

section Outcome
variable {texts : PushTexts} {request : ApnsRequest} {response : HttpResponse} {c : PushContact}

theorem pushOutcome_isRetry_iff {raised : Raised} :
    (raised.pushOutcome texts).IsRetry ↔ ∃ error detail, raised = .hookRetry error detail := by
  cases raised <;> simp [Raised.pushOutcome, HookOutcome.IsRetry]

theorem pushOutcome_ne_success {raised : Raised} (detail : Json) :
    raised.pushOutcome texts ≠ .success detail := by
  cases raised <;> simp [Raised.pushOutcome]

theorem outcome_of_isSuccess (h : response.IsSuccess) :
    (ApnsAnswer.answered request response).outcome texts =
      match httpxAutomaticDetail texts request response with
      | .ok detail => .success (sentStatus true "apns" (.obj detail.fields))
      | .error e => .exception (texts.strPython e) := by
  have hraise : raiseForHttpxStatus texts request response = none := if_pos h
  unfold ApnsAnswer.outcome
  simp only [hraise]

theorem outcome_of_not_isSuccess (h : ¬ response.IsSuccess) :
    (ApnsAnswer.answered request response).outcome texts =
      (requestsAutomaticHookRetry texts.loads
        (httpxStatusError texts request response)).pushOutcome texts := by
  have hraise : raiseForHttpxStatus texts request response =
      some (httpxStatusError texts request response) := if_neg h
  unfold ApnsAnswer.outcome
  simp only [hraise]

/-- The wrapper takes the status error of a response apart. -/
theorem httpxStatusError_retryable_iff :
    (httpxStatusError texts request response).Retryable texts.loads ↔ response.statusCode ≠ 410 ∧
      request.toHttpRequest.Readable texts.loads ∧ Parses texts.loads response.text := by
  simp [TransportException.Retryable, httpxStatusError, ExceptionClass.isHttpError,
    ExceptionClass.hasResponse, TransportException.getResponse]
  tauto

theorem httpxAutomaticDetail_ok_iff :
    (∃ detail, httpxAutomaticDetail texts request response = .ok detail) ↔
      request.toHttpRequest.Readable texts.loads ∧ Parses texts.loads response.text := by
  have hrequest : (∃ v, decode texts.loads (.bytes request.content) = .ok v) ↔
      request.toHttpRequest.Readable texts.loads := decode_ok_iff
  have hresponse : (∃ v, decode texts.loads (.text response.text) = .ok v) ↔
      Parses texts.loads response.text := decode_ok_iff
  rw [← hrequest, ← hresponse]
  unfold httpxAutomaticDetail
  cases decode texts.loads (.bytes request.content) with
  | error e => simp [bind, Except.bind]
  | ok body =>
    cases decode texts.loads (.text response.text) with
    | error e => simp [bind, Except.bind]
    | ok text => exact iff_of_true ⟨_, rfl⟩ ⟨⟨body, rfl⟩, ⟨text, rfl⟩⟩

/-- The task retries exactly after such a contact. -/
theorem pushContact_isRetry_iff : (c.outcome texts).IsRetry ↔ c.Retryable texts.loads := by
  cases c with
  | unaddressed => exact iff_of_false id id
  | skipped => exact iff_of_false id id
  | failed e => cases e <;> exact iff_of_false id id
  | fcm call answer =>
    cases answer with
    | ok response => exact iff_of_false id id
    | error e =>
      change (if _ then HookOutcome.hookRetry _ else _).IsRetry ↔ _
      by_cases hderives : e.cls.Derives retryAfterExceptionClass
      · rw [if_pos hderives]
        exact iff_of_true trivial hderives
      · rw [if_neg hderives]
        exact iff_of_false id hderives
  | apns message answer =>
    cases answer with
    | exception text => exact iff_of_false id id
    | transport exc => exact pushOutcome_isRetry_iff.trans hookRetry_iff_retryable
    | answered request response =>
      change ((ApnsAnswer.answered request response).outcome texts).IsRetry ↔
        ¬ response.IsSuccess ∧ response.statusCode ≠ 410 ∧ _ ∧ _
      by_cases hstatus : response.IsSuccess
      · rw [outcome_of_isSuccess hstatus]
        refine iff_of_false ?_ fun h => h.1 hstatus
        cases httpxAutomaticDetail texts request response <;> exact id
      · rw [outcome_of_not_isSuccess hstatus, and_iff_right hstatus,
          ← httpxStatusError_retryable_iff]
        exact pushOutcome_isRetry_iff.trans hookRetry_iff_retryable

theorem pushContact_success_iff :
    (∃ detail, c.outcome texts = .success detail) ↔ c.Succeeds texts.loads := by
  cases c with
  | unaddressed => exact iff_of_false (fun ⟨_, h⟩ => by cases h) id
  | skipped => exact iff_of_true ⟨_, rfl⟩ trivial
  | failed e => cases e <;> exact iff_of_false (fun ⟨_, h⟩ => by cases h) id
  | fcm call answer =>
    cases answer with
    | ok response => exact iff_of_true ⟨_, rfl⟩ trivial
    | error e =>
      refine iff_of_false ?_ id
      by_cases hderives : e.cls.Derives retryAfterExceptionClass
      · simp [PushContact.outcome, hderives]
      · simp [PushContact.outcome, hderives]
  | apns message answer =>
    cases answer with
    | exception text => exact iff_of_false (fun ⟨_, h⟩ => by cases h) id
    | transport exc => exact iff_of_false (fun ⟨detail, h⟩ => pushOutcome_ne_success detail h) id
    | answered request response =>
      change (∃ detail, (ApnsAnswer.answered request response).outcome texts = .success detail) ↔
        response.IsSuccess ∧ _ ∧ _
      rw [← httpxAutomaticDetail_ok_iff]
      by_cases hstatus : response.IsSuccess
      · rw [outcome_of_isSuccess hstatus]
        cases httpxAutomaticDetail texts request response with
        | error e => exact iff_of_false (by simp) (by simp)
        | ok detail => exact iff_of_true ⟨_, rfl⟩ ⟨hstatus, detail, rfl⟩
      · rw [outcome_of_not_isSuccess hstatus]
        exact iff_of_false (fun ⟨detail, h⟩ => pushOutcome_ne_success detail h)
          fun h => hstatus h.1

variable {loads : String → Except JsonLoadsError Json}

theorem PushContact.not_accepted (h : c.Retryable loads) : ¬ c.Accepted := by
  cases c with
  | unaddressed => exact id
  | skipped => exact id
  | failed e => exact id
  | fcm call answer =>
    cases answer with
    | ok response => exact fun _ => h
    | error e => exact id
  | apns message answer =>
    cases answer with
    | exception text => exact id
    | transport exc => exact id
    | answered request response => exact h.1

theorem reaches_pushContact {libs : PushLibraries} {services : PushServices} {event : MobileEvent}
    {message : PushMessage} (h : (pushContact libs services event).message = some message) :
    ∃ userUuid push, truthy event.eventsUserUuid = some userUuid ∧
      services.externalData userUuid = .ok push ∧
        (push.Reaches message ∨ push.Undirected message) := by
  have hrun : PushNotification.runMobile libs services.externalData services.formats event =
      .ok (some message) := by
    unfold pushContact at h
    split_ifs at h
    · cases h
    · cases hresult : PushNotification.runMobile libs services.externalData services.formats
        event with
      | error e => simp [hresult, PushContact.message] at h
      | ok message? =>
        rw [hresult] at h
        cases message? with
        | none => simp [PushContact.message] at h
        | some message' => cases message' <;> simpa [PushContact.message] using h
  obtain ⟨userUuid, push, type, n, huser, hpush, -, -, hnotify⟩ := exists_notify_of_runMobile hrun
  exact ⟨userUuid, push, huser, hpush, reaches_sendNotification hnotify⟩

end Outcome

/-- The hook of the task is the mobile service, which finds the services in a state of their own
at each attempt. -/
structure PushRuns (texts : PushTexts) (libs : PushLibraries) (services : ℕ → PushServices)
    (name : String) (data : List (String × Json)) (world : String → ℕ → LoggedAttempt)
    (t : HookTask) : Prop where
  payload : ∃ fields, t.event = .obj fields ∧ fields.lookup "name" = some (.str name) ∧
    fields.lookup "data" = some (.obj data)
  outcome : ∀ i, (world t.hookUuid i).outcome =
    (pushContact libs (services i) ⟨t.subscription.eventsUserUuid, name, data⟩).outcome texts

section Delivery
variable (libs : PushLibraries) (services : ℕ → PushServices) (name : String)
  (data : List (String × Json)) (t : HookTask)

def pushContacts (i : ℕ) : PushContact :=
  pushContact libs (services i) ⟨t.subscription.eventsUserUuid, name, data⟩

noncomputable def pushExchange (loads : String → Except JsonLoadsError Json)
    (world : String → ℕ → LoggedAttempt) : List PushContact :=
  exchange (PushContact.Retryable loads) (fun i => (world t.hookUuid i).databaseError = none)
    t.config.hookMaxAttempts (pushContacts libs services name data t)

variable {libs services name data t} {texts : PushTexts} {world : String → ℕ → LoggedAttempt}

theorem PushRuns.tells (h : PushRuns texts libs services name data world t) :
    Tells (PushContact.Retryable texts.loads) (PushContact.Succeeds texts.loads)
      (pushContacts libs services name data t) world t where
  retry_iff i := by
    rw [h.outcome i]
    exact pushContact_isRetry_iff
  success_iff i := by
    rw [h.outcome i]
    exact pushContact_success_iff

end Delivery

section Main
variable (serviceManager : String → Option EntryPoint) (config : HookConfig) (master : String)
  (world : String → ℕ → LoggedAttempt) {w : World} (hw : w.Serving master) (ls : List SystemStep)
  (hv : Run.Along (WebhookSystem.step serviceManager config master world)
    (WebhookSystem.Valid serviceManager config master) (.start w) ls)
include hw hv

/-- A push is tried as long as the answers of APNS and FCM, the database and the configuration
allow, and never again once one of them took it, nor after an error of wazo-auth. What the workers
have to do with them over a run is a first part of this exchange, and all of it once the hook is
done; and whatever an attempt sends goes to a device that the user of the subscription had at that
attempt, unless her token was null. -/
theorem pushes_attempted :
    let step := WebhookSystem.step serviceManager config master world
    let attempts := (WebhookSystem.start w).pool.attempts world
      ((WebhookSystem.start w).poolRun serviceManager config master world ls)
    ∀ pre m d post, ls = pre ++ .message m d :: post →
      ∀ t ∈ (pre.foldl step (.start w)).tasksOf serviceManager config m d,
        ∀ texts libs services name data, PushRuns texts libs services name data world t →
          let made := (attempts.filter fun a => a.1 = t.hookUuid).map fun a =>
            pushContacts libs services name data t (a.2 - 1)
          let whole := pushExchange libs services name data t texts.loads world
          made <+: whole ∧
          ((∀ t' ∈ (ls.foldl step (.start w)).pool.tasks, t'.hookUuid ≠ t.hookUuid) →
            made = whole) ∧
          (whole.IsChain fun c _ => ¬ c.Accepted ∧ ∀ e, c ≠ .failed e) ∧
          ∀ i c, whole[i]? = some c → ∀ message, c.message = some message → ∃ userUuid push,
            truthy t.subscription.eventsUserUuid = some userUuid ∧
              (services i).externalData userUuid = .ok push ∧
              (push.Reaches message ∨ push.Undirected message) := by
  intro step attempts pre m d post hls t ht texts libs services name data hruns made whole
  obtain ⟨hfirst, hall⟩ :=
    WebhookSystem.made_of_exchange hw.agreeing.constraints hv hls ht hruns.tells
  refine ⟨hfirst, hall, isChain_exchange _ ?_, ?_⟩
  · intro c hc
    refine ⟨PushContact.not_accepted hc, ?_⟩
    rintro e rfl
    exact hc
  · intro i c hc message hmessage
    rw [← eq_of_getElem?_exchange hc] at hmessage
    exact reaches_pushContact hmessage

end Main

def PushTexts.plain : PushTexts where
  loads _ := .error .jsonDecodeError
  strPush _ := ""
  strFcm _ := ""
  strPython _ := ""
  statusMessage _ := ""

/-- An APNS that is overloaded at the first two attempts. -/
def overloadedApns (i : ℕ) : PushServices where
  externalData _ := .ok applePush
  apns message := .answered ⟨"POST", message.url, .empty, []⟩ ⟨if i < 2 then 503 else 200, [], ""⟩
  fcm _ := .ok {}
  formats := ⟨fun _ => "", ""⟩

def overloadedPushWorld (_hookUuid : String) (i : ℕ) : LoggedAttempt where
  outcome := (pushContact .plain (overloadedApns i)
    ⟨some "2f9ac4a6-1f6b-4a1e-8d0c-6f2b1f0c7d11", "user_missed_call", []⟩).outcome .plain
  started := i
  ended := i + 1
  subscriptionDeleted := false
  databaseError := none

def missedByUserEvent : Message :=
  { missedByUser with payload := .obj [("name", .str "user_missed_call"), ("data", .obj [])] }

def createMobile : ServiceCall :=
  .create "8b6d3f5e-0d3f-4f0e-9a53-3b8b1d3f5e01" (newSubscription
    "2f9ac4a6-1f6b-4a1e-8d0c-6f2b1f0c7d11" "6c6d3b6c-58cb-4f5c-9a0e-0f1f0c1f7a03")

def mobilePlugin (_ : String) : Option EntryPoint := some ⟨"mobile.plugin", "Service"⟩

def mobileStored : WebhookSystem :=
  (WebhookSystem.start emptyWorld).step mobilePlugin ⟨10, 2⟩ "master" overloadedPushWorld
    (.daemon (.call none createMobile))

theorem pushRuns_overloaded :
    ∃ t ∈ mobileStored.tasksOf mobilePlugin ⟨10, 2⟩ missedByUserEvent ⟨zeros, fun _ _ => .ok ()⟩,
      t.hookUuid = "" ∧ PushRuns .plain .plain overloadedApns "user_missed_call" []
        overloadedPushWorld t :=
  ⟨_, List.mem_cons_self, rfl, ⟨_, rfl, rfl, rfl⟩, fun _ => rfl⟩

theorem mobileSteps_valid : Run.Along (WebhookSystem.step mobilePlugin ⟨10, 2⟩ "master"
    overloadedPushWorld) (WebhookSystem.Valid mobilePlugin ⟨10, 2⟩ "master") (.start emptyWorld)
    (hookSteps createMobile missedByUserEvent 3) :=
  hookSteps_valid zeros_ne_missedCall rfl

/-- The push is tried three times, the last of which APNS takes. -/
theorem pushes_attempted_overloaded :
    let attempts := (WebhookSystem.start emptyWorld).pool.attempts overloadedPushWorld
      ((WebhookSystem.start emptyWorld).poolRun mobilePlugin ⟨10, 2⟩ "master"
        overloadedPushWorld (hookSteps createMobile missedByUserEvent 3))
    attempts = [("", 1), ("", 2), ("", 3)] ∧
    ∃ t ∈ mobileStored.tasksOf mobilePlugin ⟨10, 2⟩ missedByUserEvent ⟨zeros, fun _ _ => .ok ()⟩,
      ((attempts.filter fun a => a.1 = t.hookUuid).map fun a =>
          pushContacts .plain overloadedApns "user_missed_call" [] t (a.2 - 1)) =
        pushExchange .plain overloadedApns "user_missed_call" [] t PushTexts.plain.loads
          overloadedPushWorld := by
  intro attempts
  obtain ⟨t, ht, -, hruns⟩ := pushRuns_overloaded
  have hdone : ((hookSteps createMobile missedByUserEvent 3).foldl (WebhookSystem.step mobilePlugin
      ⟨10, 2⟩ "master" overloadedPushWorld) (.start emptyWorld)).pool.tasks.map (·.hookUuid) =
        [] := by decide
  obtain ⟨-, hall, -⟩ := pushes_attempted mobilePlugin ⟨10, 2⟩ "master" overloadedPushWorld
    serving_emptyWorld (hookSteps createMobile missedByUserEvent 3) mobileSteps_valid
    [.daemon (.call none createMobile)] missedByUserEvent ⟨zeros, fun _ _ => .ok ()⟩ _ rfl t ht
    _ _ _ _ _ hruns
  refine ⟨by decide, t, ht, hall ?_⟩
  intro t' ht'
  rw [List.map_eq_nil_iff.mp hdone] at ht'
  cases ht'

end WazoWebhookd

import WazoWebhookd.Mobile.FcmClient
import WazoWebhookd.Mobile.PushNotification

/-! The legacy client of FCM over that of `pyfcm`, whose exceptions have the names of those of
`fcm_client`, and what a notification makes of its exceptions. -/
namespace WazoWebhookd
open ExceptionClasses RaisedClass

/-- Two classes of `pyfcm.errors`, apart from those that have their names here. -/
structure PyfcmErrors where
  fcmServerError : RaisedClass
  retryAfterException : RaisedClass
  unrelated : ∀ c ∈ [fcmServerError, retryAfterException],
    ∀ d ∈ [fcmServerErrorClass, retryAfterExceptionClass], c.Unrelated d

/-- The client of `pyfcm`: its requests, and what it reads of the responses. -/
structure LegacyBase where
  sendRequest : FcmCall → Except FcmException (List FcmHTTPResponse)
  parseResponses : List FcmHTTPResponse → Except FcmException FcmResponseDict

namespace FCMNotificationLegacy

def errorResponses (responses : List FcmHTTPResponse) : List FcmHTTPResponse :=
  responses.filter fun response => response.statusCode ∉ [200, 401, 400]

/-- `error_responses[-1]`, in the exception that is raised. -/
def raiseLast (responses : List FcmHTTPResponse) : Except FcmException FcmResponseDict :=
  match (errorResponses responses).getLast? with
  | none => .error ⟨indexErrorClass, [.str "list index out of range"]⟩
  | some response => .error ⟨fcmServerErrorClass, [.num response.statusCode, .str response.text]⟩

def parseResponses (base : LegacyBase) (responses : List FcmHTTPResponse) :
    Except FcmException FcmResponseDict :=
  tryExcept FcmException.cls fcmServerErrorClass (base.parseResponses responses) fun _ =>
    raiseLast responses

def notify (base : LegacyBase) (call : FcmCall) : Except FcmException FcmResponseDict := do
  let responses ← base.sendRequest call
  parseResponses base responses

end FCMNotificationLegacy

inductive SendError
  | push (e : PushError)
  | fcm (e : FcmException)
  | hookRetry (detail : Json)

def PushError.cls : PushError → RaisedClass
  | .keyError _ => keyErrorClass
  | .typeError => typeErrorClass
  | .notificationError _ =>
    (exceptionClass.derive "helpers.HookExpectedError").derive "exceptions.NotificationError"
  | .exception _ => exceptionClass

def SendError.cls : SendError → RaisedClass
  | .push e => e.cls
  | .fcm e => e.cls
  | .hookRetry _ => exceptionClass.derive "helpers.HookRetry"

inductive ProtocolUsed
  | apns
  | fcm

inductive FullResponse
  | fcm (response : FcmResponseDict)
  | apns (details : Json)

structure NotificationSentStatus where
  success : Bool
  protocolUsed : ProtocolUsed
  fullResponse : FullResponse

/-- The clients that messages are handed to, and `str` of an exception. -/
structure PushClients where
  legacyBase : LegacyBase
  v1 : FcmCall → Except FcmException FcmResponseDict
  apns : ApnMessage → Except SendError Json
  str : SendError → String

def PushClients.notify (clients : PushClients) (call : FcmCall) :
    Except FcmException FcmResponseDict :=
  match call.credentials with
  | .apiKey _ => FCMNotificationLegacy.notify clients.legacyBase call
  | .serviceAccountInfo _ => clients.v1 call

namespace PushNotification
variable (libs : PushLibraries) (clients : PushClients) (push : PushNotification)

def fcmStatus (messageTitle messageBody : Option String) (data : NotificationPayload)
    (dataOnly : Bool) : Except SendError NotificationSentStatus :=
  let sent := do
    let call ← (push.sendViaFcm libs messageTitle messageBody data dataOnly).mapError SendError.push
    let response ← (clients.notify call).mapError SendError.fcm
    pure ⟨decide (1 ≤ response.success), .fcm, .fcm response⟩
  tryExcept SendError.cls retryAfterExceptionClass sent fun e =>
    .error (.hookRetry (.obj [("error", .str (clients.str e))]))

def apnsStatus (messageTitle messageBody : Option String) (data : NotificationPayload)
    (dataOnly : Bool) : Except SendError NotificationSentStatus := do
  let message ← (push.sendViaApn messageTitle messageBody data dataOnly).mapError SendError.push
  let details ← clients.apns message
  pure ⟨true, .apns, .apns details⟩

/-- `send_notification`, with what comes of the message. -/
def notificationStatus (notificationType : String) (messageTitle messageBody : Option String)
    (extra : Option LoadedDict) (dataOnly : Bool) : Except SendError NotificationSentStatus := do
  let data ← (markDataOnly dataOnly (payloadOf notificationType (extra.getD ∅))).mapError
    SendError.push
  if push.canSendToApn then push.apnsStatus clients messageTitle messageBody data dataOnly
  else push.fcmStatus libs clients messageTitle messageBody data dataOnly

end PushNotification

/-- The exception that has to come of a server error of `pyfcm`. -/
def TranslatedServerError (responses : List FcmHTTPResponse) (e : FcmException) : Prop :=
  e.cls = fcmServerErrorClass ∧
    ∀ response ∈ (FCMNotificationLegacy.errorResponses responses).getLast?,
      e.args = [.num response.statusCode, .str response.text]

/-- The client of `pyfcm` raises `e` for the call. -/
def LegacyBase.Raises (base : LegacyBase) (call : FcmCall) (e : FcmException) : Prop :=
  base.sendRequest call = .error e ∨
    ∃ responses, base.sendRequest call = .ok responses ∧ base.parseResponses responses = .error e

/-- The two exceptions of `pyfcm` come out as those of this repository. -/
structure Translated (pyfcm : PyfcmErrors) (base : LegacyBase) (responses : List FcmHTTPResponse)
    (call : FcmCall) (status : Except SendError NotificationSentStatus) : Prop where
  serverError : ∀ e, base.parseResponses responses = .error e →
    e.cls.Derives pyfcm.fcmServerError →
    ∃ e', FCMNotificationLegacy.parseResponses base responses = .error e' ∧
      TranslatedServerError responses e'
  retryAfter : ∀ e, base.Raises call e → e.cls.Derives pyfcm.retryAfterException →
    ∃ detail, status = .error (.hookRetry detail)

/-- The client of `pyfcm` raises neither of the two exceptions. -/
structure RaisesNeither (pyfcm : PyfcmErrors) (base : LegacyBase)
    (responses : List FcmHTTPResponse) (call : FcmCall) : Prop where
  serverError : ∀ e, base.parseResponses responses = .error e →
    ¬ e.cls.Derives pyfcm.fcmServerError
  retryAfter : ∀ e, base.Raises call e → ¬ e.cls.Derives pyfcm.retryAfterException

section Spec
variable (pyfcm : PyfcmErrors) {base : LegacyBase} {responses : List FcmHTTPResponse}
  {call : FcmCall} {e : FcmException}

/-- The `except` of the subclass names a class that nothing of `pyfcm` derives from. -/
theorem parseResponses_of_pyfcm {c : RaisedClass}
    (hc : c ∈ [pyfcm.fcmServerError, pyfcm.retryAfterException])
    (h : base.parseResponses responses = .error e) (he : e.cls.Derives c) :
    FCMNotificationLegacy.parseResponses base responses = .error e := by
  have hunrelated := pyfcm.unrelated c hc fcmServerErrorClass (by simp)
  unfold FCMNotificationLegacy.parseResponses
  rw [h]
  exact tryExcept_of_unrelated he hunrelated

theorem notify_of_raises (h : base.Raises call e) (he : e.cls.Derives pyfcm.retryAfterException) :
    FCMNotificationLegacy.notify base call = .error e := by
  unfold FCMNotificationLegacy.notify
  rcases h with hsend | ⟨responses, hsend, hparse⟩
  · rw [hsend]
    rfl
  · rw [Except.bind_of_eq_ok hsend]
    exact parseResponses_of_pyfcm pyfcm (by simp) hparse he

variable {libs : PushLibraries} (clients : PushClients) {push : PushNotification}
  {title body : Option String} {data : NotificationPayload} {dataOnly : Bool}

theorem fcmStatus_of_notify_error
    (hcall : push.sendViaFcm libs title body data dataOnly = .ok call)
    (hnotify : clients.notify call = .error e) (he : e.cls.Derives pyfcm.retryAfterException) :
    push.fcmStatus libs clients title body data dataOnly = .error (.fcm e) := by
  have hunrelated := pyfcm.unrelated pyfcm.retryAfterException (by simp)
    retryAfterExceptionClass (by simp)
  unfold PushNotification.fcmStatus
  rw [hcall]
  dsimp only [Except.mapError, Bind.bind, Except.bind]
  rw [hnotify]
  have hraised : (SendError.fcm e).cls.Derives pyfcm.retryAfterException := he
  exact tryExcept_of_unrelated hraised hunrelated

theorem notificationStatus_of_not_apn {type : String} {extra : Option LoadedDict}
    (hdata : PushNotification.markDataOnly dataOnly
      (PushNotification.payloadOf type (extra.getD ∅)) = .ok data)
    (hapn : ¬ push.canSendToApn) :
    push.notificationStatus libs clients type title body extra dataOnly =
      push.fcmStatus libs clients title body data dataOnly := by
  unfold PushNotification.notificationStatus
  rw [hdata]
  dsimp only [Except.mapError, Bind.bind, Except.bind]
  rw [if_neg hapn]

/-- The exceptions of `pyfcm` are never translated. -/
theorem translated_iff {type : String} {extra : Option LoadedDict} {key : String}
    (hdata : PushNotification.markDataOnly dataOnly
      (PushNotification.payloadOf type (extra.getD ∅)) = .ok data)
    (hapn : ¬ push.canSendToApn)
    (hcall : push.sendViaFcm libs title body data dataOnly = .ok call)
    (hkey : call.credentials = .apiKey key) :
    Translated pyfcm clients.legacyBase responses call
        (push.notificationStatus libs clients type title body extra dataOnly) ↔
      RaisesNeither pyfcm clients.legacyBase responses call := by
  rw [notificationStatus_of_not_apn clients hdata hapn]
  constructor
  · intro h
    constructor
    · intro e hparse he
      obtain ⟨e', hsame, hcls, -⟩ := h.serverError e hparse he
      have hthrough := parseResponses_of_pyfcm pyfcm (by simp) hparse he
      obtain rfl : e = e' := Except.error.inj (hthrough.symm.trans hsame)
      have hunrelated := pyfcm.unrelated pyfcm.fcmServerError (by simp)
        fcmServerErrorClass (by simp)
      exact hunrelated.not_derives he (hcls ▸ derives_refl _)
    · intro e hraises he
      obtain ⟨detail, hstatus⟩ := h.retryAfter e hraises he
      have hnotify : clients.notify call = .error e := by
        unfold PushClients.notify
        rw [hkey]
        exact notify_of_raises pyfcm hraises he
      rw [fcmStatus_of_notify_error pyfcm clients hcall hnotify he] at hstatus
      cases hstatus
  · intro h
    constructor
    · exact fun e hparse he => absurd he (h.serverError e hparse)
    · exact fun e hraises he => absurd he (h.retryAfter e hraises)

end Spec

/-- The classes of `pyfcm.errors`. -/
def PyfcmErrors.documented : PyfcmErrors where
  fcmServerError := (exceptionClass.derive "pyfcm.errors.FCMError").derive
    "pyfcm.errors.FCMServerError"
  retryAfterException := exceptionClass.derive "pyfcm.errors.RetryAfterException"
  unrelated := by decide

/-- A client of `pyfcm` that gets those responses, and asks the caller to retry on a 429. -/
def LegacyBase.answering (responses : List FcmHTTPResponse) : LegacyBase where
  sendRequest _ :=
    if responses.any (·.statusCode = 429) then
      .error ⟨PyfcmErrors.documented.retryAfterException, [.num 10]⟩
    else .ok responses
  parseResponses responses :=
    if responses.all fun response => response.statusCode = 200 && response.text ≠ "" then
      .ok { success := responses.length }
    else .error ⟨PyfcmErrors.documented.fcmServerError, []⟩

def plainResponse (statusCode : ℕ) (text : String) : FcmHTTPResponse where
  statusCode := statusCode
  headers := []
  text := text
  json := none

def PushClients.answering (responses : List FcmHTTPResponse) : PushClients where
  legacyBase := .answering responses
  v1 _ := .ok {}
  apns _ := .ok .null
  str _ := "10"

def legacyPush : PushNotification where
  config := applePush.config
  externalTokens := Finmap.singleton "token" (some "android")
  externalConfig := { applePush.externalConfig with fcmApiKey := some "key" }
  jwt := none

def newsCall : FcmCall where
  credentials := .apiKey "key"
  endPoint := .legacy
  method := .notifySingleDevice
  registration := some "android"
  dataMessage := PushNotification.payloadOf "news" ∅
  messageTitle := some "News"
  androidChannelId := some defaultAndroidChannelId
  badge := some 1

theorem translated_accepted :
    Translated PyfcmErrors.documented (.answering [plainResponse 200 "ok"])
      [plainResponse 200 "ok"] newsCall
      (legacyPush.notificationStatus PushLibraries.plain (.answering [plainResponse 200 "ok"])
        "news" (some "News") none none false) := by
  have hneither : RaisesNeither PyfcmErrors.documented (.answering [plainResponse 200 "ok"])
      [plainResponse 200 "ok"] newsCall := by
    constructor
    · intro e h
      cases h
    · rintro e (hsend | ⟨responses, hsend, hparse⟩)
      · cases hsend
      · cases hsend
        cases hparse
  exact (translated_iff PyfcmErrors.documented (.answering [plainResponse 200 "ok"]) rfl
    (by decide) rfl rfl).mpr hneither

/-- An FCM that is not available, and one that asks to retry later. -/
theorem untranslated :
    (FCMNotificationLegacy.parseResponses (.answering [plainResponse 500 "down"])
        [plainResponse 500 "down"] =
          .error ⟨PyfcmErrors.documented.fcmServerError, []⟩ ∧
      ∀ call status, ¬ Translated PyfcmErrors.documented (.answering [plainResponse 500 "down"])
        [plainResponse 500 "down"] call status) ∧
    (legacyPush.notificationStatus PushLibraries.plain (.answering [plainResponse 429 "later"])
        "news" none none none false =
          .error (.fcm ⟨PyfcmErrors.documented.retryAfterException, [.num 10]⟩) ∧
      ∀ call, ¬ Translated PyfcmErrors.documented (.answering [plainResponse 429 "later"])
        [] call (legacyPush.notificationStatus PushLibraries.plain
          (.answering [plainResponse 429 "later"]) "news" none none none false)) := by
  constructor
  · have hraised : FCMNotificationLegacy.parseResponses (.answering [plainResponse 500 "down"])
        [plainResponse 500 "down"] = .error ⟨PyfcmErrors.documented.fcmServerError, []⟩ := rfl
    refine ⟨hraised, fun call status h => ?_⟩
    obtain ⟨e', hsame, hcls, -⟩ := h.serverError ⟨PyfcmErrors.documented.fcmServerError, []⟩ rfl
      (derives_refl _)
    obtain rfl := Except.error.inj (hraised.symm.trans hsame)
    have hne : PyfcmErrors.documented.fcmServerError ≠ fcmServerErrorClass := by decide
    exact hne hcls
  · have hraised : legacyPush.notificationStatus PushLibraries.plain
        (.answering [plainResponse 429 "later"]) "news" none none none false =
          .error (.fcm ⟨PyfcmErrors.documented.retryAfterException, [.num 10]⟩) := rfl
    refine ⟨hraised, fun call h => ?_⟩
    obtain ⟨detail, hdetail⟩ := h.retryAfter
      ⟨PyfcmErrors.documented.retryAfterException, [.num 10]⟩ (.inl rfl) (derives_refl _)
    cases hraised.symm.trans hdetail

end WazoWebhookd

import WazoWebhookd.Library.Failing
import WazoWebhookd.Library.KeyedList
import WazoWebhookd.Mobile.NotificationSchema

/-! The messages that a push notification hands to APNS or to FCM, and those that the clients of
the API can cause. -/
namespace WazoWebhookd

abbrev NotificationPayload := LoadedDict

structure PushConfig where
  mobileApnsCallTopic : String
  mobileApnsDefaultTopic : String
  mobileApnsHost : String
  mobileApnsPort : ℕ
  mobileFcmNotificationEndPoint : String

structure ExternalConfigDict where
  fcmApiKey : Option String
  fcmServiceAccountInfo : Option String
  iosApnCertificate : Option String
  iosApnPrivate : Option String
  useSandbox : Bool

/-- A `PushNotification`, apart from its task. -/
structure PushNotification where
  config : PushConfig
  externalTokens : StringDict
  externalConfig : ExternalConfigDict
  jwt : Option String

inductive PushError
  | keyError (key : String)
  | typeError
  | notificationError (message : String)
  | exception (message : String)

/-- What is used of `json`, and the construction of the FCM client. -/
structure PushLibraries where
  loads : String → Except PushError Json
  dumps : Json → String
  connect : Json → Except PushError Unit

structure ApnsHeaders where
  apnsTopic : String
  apnsPushType : String
  apnsPriority : String

inductive Alert
  | data (data : NotificationPayload)
  | text (title body : Option String)

structure Aps where
  badge : ℕ
  sound : Option String := none
  contentAvailable : Option ℕ := none
  alert : Option Alert := none

/-- `{'aps': aps, **data}`, where the data may have an `aps` of its own, and
`{'aps': aps, 'data': data}`. -/
inductive ApnsPayload
  | merged (aps : Aps) (data : NotificationPayload)
  | wrapped (aps : Aps) (data : NotificationPayload)

structure ApnMessage where
  url : String
  headers : ApnsHeaders
  sandbox : Bool
  authorization : Option String
  certificate : Option String
  payload : ApnsPayload

inductive FcmEndPoint
  | v1
  | legacy
  | configured (url : String)

inductive FcmCredentials
  | serviceAccountInfo (info : Json)
  | apiKey (key : String)

inductive FcmMethod
  | notifySingleDevice
  | singleDeviceDataMessage

/-- A call of a method of the FCM client; what is not passed is `none`. -/
structure FcmCall where
  credentials : FcmCredentials
  endPoint : FcmEndPoint
  method : FcmMethod
  registration : Option String
  dataMessage : NotificationPayload
  timeToLive : ℕ := 0
  lowPriority : Option Bool := none
  androidChannelId : Option String := none
  badge : Option ℕ := none
  messageTitle : Option String := none
  messageBody : Option String := none

inductive PushMessage
  | apns (message : ApnMessage)
  | fcm (call : FcmCall)

def defaultAndroidChannelId : String := "io.wazo.songbird"

/-- The special treatment of some types. -/
inductive Treatment
  | incomingCall
  | cancelIncomingCall
  | generic
  deriving DecidableEq

def treatment (notificationType : Json) : Treatment :=
  if notificationType.asString = some NotificationType.incomingCall.value then .incomingCall
  else if notificationType.asString = some NotificationType.cancelIncomingCall.value then
    .cancelIncomingCall
  else .generic

def itemOf (data : NotificationPayload) (key : String) : Except PushError Json :=
  match data.lookup key with
  | none => .error (.keyError key)
  | some value => .ok value

namespace PushNotification
variable (libs : PushLibraries) (self : PushNotification)

/-- `self.external_tokens.get(key)`, when it is true. -/
def token (key : String) : Option String := truthy (self.externalTokens.lookup key).join

def canSendToApn : Bool :=
  (self.token "apns_voip_token").isSome || (self.token "apns_notification_token").isSome ||
    (self.token "apns_token").isSome

def alertText (messageTitle messageBody : Option String) : Option Alert :=
  match truthy messageTitle, truthy messageBody with
  | none, none => none
  | title, body => some (.text title body)

/-- The headers and the payload of `_create_apn_message`. -/
def apnContent (messageTitle messageBody : Option String) (data : NotificationPayload)
    (dataOnly : Bool) : Treatment → ApnsHeaders × ApnsPayload :=
  let apnsCallTopic := (self.token "apns_call_topic").getD self.config.mobileApnsCallTopic
  let apnsDefaultTopic :=
    (self.token "apns_default_topic").getD self.config.mobileApnsDefaultTopic
  fun
  | .incomingCall =>
    (⟨apnsCallTopic, "voip", "10"⟩, .merged { badge := 1, alert := some (.data data) } data)
  | .cancelIncomingCall =>
    (⟨apnsDefaultTopic, "alert", "5"⟩,
      .merged { badge := 1, sound := some "default", contentAvailable := some 1 } data)
  | .generic =>
    (⟨apnsDefaultTopic, "alert", "5"⟩,
      .wrapped {
        badge := 1
        sound := some "default"
        contentAvailable := if dataOnly then some 1 else none
        alert := alertText messageTitle messageBody } data)

def apnToken : Treatment → Except PushError (Option String)
  | .incomingCall =>
    match self.token "apns_voip_token", self.externalTokens.lookup "apns_token" with
    | some token, _ => .ok (some token)
    | none, some token => .ok token
    | none, none => .error (.keyError "apns_token")
  | .cancelIncomingCall | .generic =>
    match self.externalTokens.lookup "apns_notification_token" with
    | some token => .ok token
    | none => .error (.notificationError ("Mobile application did not upload external " ++
        "auth token `apns_notification_token`"))

def createApnMessage (messageTitle messageBody : Option String) (data : NotificationPayload)
    (dataOnly : Bool) : Except PushError (ApnsHeaders × ApnsPayload × Option String) := do
  let notificationType ← itemOf data "notification_type"
  let (headers, payload) :=
    self.apnContent messageTitle messageBody data dataOnly (treatment notificationType)
  let token ← self.apnToken (treatment notificationType)
  pure (headers, payload, token)

def certificate : Option String :=
  match truthy self.externalConfig.iosApnCertificate, truthy self.externalConfig.iosApnPrivate with
  | some certificate, some privateKey => some (certificate ++ "\r\n" ++ privateKey)
  | _, _ => none

/-- `_send_via_apn`, up to the request. -/
def sendViaApn (messageTitle messageBody : Option String) (data : NotificationPayload)
    (dataOnly : Bool) : Except PushError ApnMessage := do
  let (headers, payload, token) ← self.createApnMessage messageTitle messageBody data dataOnly
  let useSandbox := self.externalConfig.useSandbox
  let host := if useSandbox && self.config.mobileApnsHost = "api.push.apple.com" then
      "api.sandbox.push.apple.com"
    else self.config.mobileApnsHost
  pure {
    url := "https://" ++ host ++ ":" ++ toString self.config.mobileApnsPort ++ "/3/device/" ++
      token.getD "None"
    headers := headers
    sandbox := useSandbox
    authorization := (truthy self.jwt).map ("Bearer " ++ ·)
    certificate := self.certificate
    payload := payload }

/-- The client of FCM, and the place it sends to. -/
def fcmClient : Except PushError (FcmCredentials × FcmEndPoint) :=
  match truthy self.externalConfig.fcmServiceAccountInfo,
    truthy self.externalConfig.fcmApiKey, truthy self.jwt with
  | some raw, _, _ => do
    let info ← libs.loads raw
    libs.connect info
    pure (.serviceAccountInfo info, .v1)
  | none, some key, _ => .ok (.apiKey key, .legacy)
  | none, none, some jwt => .ok (.apiKey jwt, .configured self.config.mobileFcmNotificationEndPoint)
  | none, none, none => .error (.exception ("Unable to send notification to FCM: " ++
      "no valid authorizationfound to be sent to FCM"))

/-- The data as the client takes it: the new one wants its items in a string. -/
def fcmData (credentials : FcmCredentials) (data : NotificationPayload) : NotificationPayload :=
  match credentials with
  | .apiKey _ => data
  | .serviceAccountInfo _ =>
    let payload := (data.lookup "items").getD .null
    data.insert "items" (.str (if payload.truthy then libs.dumps payload else ""))

/-- The method that is called, and the arguments that depend on the type. -/
def treatCall (messageTitle messageBody : Option String) (dataOnly : Bool) (call : FcmCall) :
    Treatment → FcmCall
  | .incomingCall => { call with method := .notifySingleDevice, lowPriority := some false }
  | .cancelIncomingCall =>
    { call with
      method := .singleDeviceDataMessage
      androidChannelId := some defaultAndroidChannelId }
  | .generic =>
    if dataOnly then
      { call with
        method := .singleDeviceDataMessage
        lowPriority := some false
        androidChannelId := some defaultAndroidChannelId }
    else
      { call with
        method := .notifySingleDevice
        messageTitle := truthy messageTitle
        messageBody := truthy messageBody
        androidChannelId := some defaultAndroidChannelId
        badge := some 1 }

def registrationToken : Except PushError (Option String) :=
  match self.externalTokens.lookup "token" with
  | some token => .ok token
  | none => .error (.keyError "token")

/-- `_send_via_fcm`, up to the call of the client. -/
def sendViaFcm (messageTitle messageBody : Option String) (data : NotificationPayload)
    (dataOnly : Bool) : Except PushError FcmCall := do
  let (credentials, endPoint) ← self.fcmClient libs
  let notificationType ← itemOf data "notification_type"
  let registration ← self.registrationToken
  let call : FcmCall := {
    credentials := credentials
    endPoint := endPoint
    method := .notifySingleDevice
    registration := registration
    dataMessage := fcmData libs credentials data }
  pure (treatCall messageTitle messageBody dataOnly call (treatment notificationType))

/-- The payload of a notification: the extra fields after its type and its items. -/
def payloadOf (notificationType : String) (extra : LoadedDict) : NotificationPayload :=
  extra.erase "items" ∪ ((Finmap.singleton "items" ((extra.lookup "items").getD (.obj []))).insert
    "notification_type" (.str notificationType))

def markDataOnly (dataOnly : Bool) (data : NotificationPayload) :
    Except PushError NotificationPayload :=
  if dataOnly then do
    match ← itemOf data "items" with
    | .obj items =>
      pure (data.insert "items" (.obj (KeyedList.setItem "data_only" (.bool true) items)))
    | _ => throw .typeError
  else .ok data

/-- `send_notification`, up to the message it hands over. -/
def sendNotification (notificationType : String) (messageTitle messageBody : Option String)
    (extra : Option LoadedDict) (dataOnly : Bool) : Except PushError PushMessage := do
  let data ← markDataOnly dataOnly (payloadOf notificationType (extra.getD ∅))
  if self.canSendToApn then
    (self.sendViaApn messageTitle messageBody data dataOnly).map .apns
  else (self.sendViaFcm libs messageTitle messageBody data dataOnly).map .fcm

/-- The task that sends the notification of a client. -/
def sendNotificationTask (notification : NotificationDict) : Except PushError PushMessage :=
  self.sendNotification libs notification.notificationType (some notification.title)
    (some notification.body) (some notification.extra) false

end PushNotification

namespace PushMessage

def data : PushMessage → NotificationPayload
  | .apns message => match message.payload with
    | .merged _ data | .wrapped _ data => data
  | .fcm call => call.dataMessage

def notificationType (message : PushMessage) : Option Json :=
  message.data.lookup "notification_type"

/-- A message that no special treatment has touched. -/
def Generic : PushMessage → Prop
  | .apns message =>
    message.headers.apnsPushType = "alert" ∧ ∃ aps data, message.payload = .wrapped aps data
  | .fcm call => call.method = .notifySingleDevice ∧ call.badge = some 1

/-- A message of the type that a client was allowed to send. -/
structure Genuine (message : PushMessage) (type : String) : Prop where
  carries : message.notificationType = some (.str type)
  unreserved : type ∉ reservedNotificationTypes.map (·.value)
  generic : message.Generic

end PushMessage

section Spec
variable {libs : PushLibraries} {self : PushNotification} {title body : Option String}
  {data : NotificationPayload} {type : Json}

theorem treatment_generic {s : String} (h : s ∉ reservedNotificationTypes.map (·.value)) :
    treatment (.str s) = .generic := by
  have hcall : s ≠ NotificationType.incomingCall.value := fun heq => by
    simp [heq, reservedNotificationTypes] at h
  have hcancel : s ≠ NotificationType.cancelIncomingCall.value := fun heq => by
    simp [heq, reservedNotificationTypes] at h
  simp [treatment, Json.asString, hcall, hcancel]

theorem itemOf_of_lookup (h : data.lookup "notification_type" = some type) :
    itemOf data "notification_type" = .ok type := by
  unfold itemOf
  rw [h]

theorem lookup_payloadOf (type : String) (extra : LoadedDict) :
    (PushNotification.payloadOf type extra).lookup "notification_type" =
      some ((extra.lookup "notification_type").getD (.str type)) := by
  unfold PushNotification.payloadOf
  have herase : (extra.erase "items").lookup "notification_type" =
      extra.lookup "notification_type" := Finmap.lookup_erase_ne (by decide)
  cases hextra : extra.lookup "notification_type" with
  | none =>
    rw [Finmap.lookup_union_right, Finmap.lookup_insert]
    · rfl
    · rw [← Finmap.lookup_eq_none, herase, hextra]
  | some v =>
    rw [Finmap.lookup_union_left, herase, hextra]
    · rfl
    · exact Finmap.mem_iff.mpr ⟨v, by rw [herase, hextra]⟩

theorem sendViaApn_spec {message : ApnMessage}
    (htype : data.lookup "notification_type" = some type)
    (h : self.sendViaApn title body data false = .ok message) :
    (PushMessage.apns message).data = data ∧
      (treatment type = .generic → (PushMessage.apns message).Generic) := by
  obtain ⟨⟨headers, payload, token⟩, hcreate, h⟩ := Except.exists_of_bind_eq_ok h
  cases h
  obtain ⟨type', hitem, hcreate⟩ := Except.exists_of_bind_eq_ok hcreate
  obtain rfl : type = type' := Except.ok.inj ((itemOf_of_lookup htype).symm.trans hitem)
  obtain ⟨token', -, hcreate⟩ := Except.exists_of_bind_eq_ok hcreate
  cases hcreate
  cases htreat : treatment type with
  | incomingCall => exact ⟨rfl, fun hg => by cases hg⟩
  | cancelIncomingCall => exact ⟨rfl, fun hg => by cases hg⟩
  | generic => exact ⟨rfl, fun _ => ⟨rfl, _, _, rfl⟩⟩

theorem lookup_fcmData (credentials : FcmCredentials) :
    (PushNotification.fcmData libs credentials data).lookup "notification_type" =
      data.lookup "notification_type" := by
  cases credentials with
  | apiKey key => rfl
  | serviceAccountInfo info => exact Finmap.lookup_insert_of_ne data (by decide)

theorem sendViaFcm_spec {call : FcmCall}
    (htype : data.lookup "notification_type" = some type)
    (h : self.sendViaFcm libs title body data false = .ok call) :
    call.dataMessage.lookup "notification_type" = some type ∧
      (treatment type = .generic → (PushMessage.fcm call).Generic) := by
  obtain ⟨⟨credentials, endPoint⟩, -, h⟩ := Except.exists_of_bind_eq_ok h
  obtain ⟨type', hitem, h⟩ := Except.exists_of_bind_eq_ok h
  obtain rfl : type = type' := Except.ok.inj ((itemOf_of_lookup htype).symm.trans hitem)
  obtain ⟨registration, -, h⟩ := Except.exists_of_bind_eq_ok h
  cases h
  have hdata : (PushNotification.fcmData libs credentials data).lookup "notification_type" =
      some type := (lookup_fcmData credentials).trans htype
  cases htreat : treatment type with
  | incomingCall => exact ⟨hdata, fun hg => by cases hg⟩
  | cancelIncomingCall => exact ⟨hdata, fun hg => by cases hg⟩
  | generic => exact ⟨hdata, fun _ => ⟨rfl, rfl⟩⟩

/-- Whichever transport it is, the message carries the type of the payload and is treated as that
type is. -/
theorem sendNotification_spec {t : String} {extra : LoadedDict} {message : PushMessage}
    (h : self.sendNotification libs t title body (some extra) false = .ok message) :
    let type := (extra.lookup "notification_type").getD (.str t)
    message.notificationType = some type ∧ (treatment type = .generic → message.Generic) := by
  intro type
  have htype : (PushNotification.payloadOf t extra).lookup "notification_type" = some type :=
    lookup_payloadOf t extra
  obtain ⟨data, hdata, h⟩ := Except.exists_of_bind_eq_ok h
  obtain rfl : PushNotification.payloadOf t extra = data := Except.ok.inj hdata
  by_cases hapn : self.canSendToApn
  · rw [if_pos hapn] at h
    obtain ⟨apn, hsend, rfl⟩ := Except.exists_of_map_eq_ok h
    obtain ⟨hdata, hgeneric⟩ := sendViaApn_spec htype hsend
    refine ⟨?_, hgeneric⟩
    unfold PushMessage.notificationType
    rw [hdata, htype]
  · rw [if_neg hapn] at h
    obtain ⟨call, hsend, rfl⟩ := Except.exists_of_map_eq_ok h
    exact sendViaFcm_spec htype hsend

end Spec

/-- Extra fields with another type are the one way out of the type that was asked for. -/
theorem sendNotificationTask_spec {n : NotificationDict} {libs : PushLibraries}
    {self : PushNotification} {message : PushMessage}
    (hreserved : n.notificationType ∉ reservedNotificationTypes.map (·.value))
    (hsend : self.sendNotificationTask libs n = .ok message) :
    message.notificationType =
        some ((n.extra.lookup "notification_type").getD (.str n.notificationType)) ∧
      (message.Genuine n.notificationType ↔
        ∀ v, n.extra.lookup "notification_type" = some v → v = .str n.notificationType) := by
  obtain ⟨htype, hgeneric⟩ := sendNotification_spec hsend
  refine ⟨htype, ?_⟩
  constructor
  · intro hgenuine v hv
    have hcarried := htype.symm.trans hgenuine.carries
    rw [hv] at hcarried
    exact Option.some.inj hcarried
  · intro hextra
    have hsame : (n.extra.lookup "notification_type").getD (.str n.notificationType) =
        .str n.notificationType := by
      cases hv : n.extra.lookup "notification_type" with
      | none => rfl
      | some v => exact hextra v hv
    rw [hsame] at htype hgeneric
    exact ⟨htype, hreserved, hgeneric (treatment_generic hreserved)⟩

/-- The message has the type that was validated, and no special treatment, exactly when the extra
fields have no other type. -/
theorem genuine_iff {mallow : NotificationMallow} (hm : mallow.Documented) {json : Json}
    {d : LoadedDict} (hload : loadNotification mallow json = .ok d) {n : NotificationDict}
    (hn : NotificationDict.ofDict d = some n) {libs : PushLibraries} {self : PushNotification}
    {message : PushMessage} (hsend : self.sendNotificationTask libs n = .ok message) :
    message.Genuine n.notificationType ↔
      ∀ v, n.extra.lookup "notification_type" = some v → v = .str n.notificationType := by
  obtain ⟨n', hn', hvalid⟩ := exists_notification_of_load hm hload
  obtain rfl : n = n' := Option.some.inj (hn.symm.trans hn')
  exact (sendNotificationTask_spec (not_reserved_of_validate hvalid) hsend).2

def newsNotification (extra : List (String × Json)) : Json :=
  .obj [("notification_type", .str "news"),
    ("user_uuid", .str "00000000-0000-0000-0000-000000000001"), ("title", .str "News"),
    ("body", .str "All is well"), ("extra", .obj extra)]

def applePush : PushNotification where
  config := {
    mobileApnsCallTopic := "io.wazo.voip"
    mobileApnsDefaultTopic := "io.wazo"
    mobileApnsHost := "api.push.apple.com"
    mobileApnsPort := 443
    mobileFcmNotificationEndPoint := "" }
  externalTokens := (Finmap.singleton "apns_voip_token" (some "v")).insert
    "apns_notification_token" (some "n")
  externalConfig := {
    fcmApiKey := none
    fcmServiceAccountInfo := none
    iosApnCertificate := none
    iosApnPrivate := none
    useSandbox := false }
  jwt := none

/-- Libraries that no push to APNS calls. -/
def PushLibraries.plain : PushLibraries where
  loads _ := .error (.exception "no JSON")
  dumps _ := ""
  connect _ := .ok ()

theorem genuine_news :
    ∃ d n message, loadNotification NotificationMallow.plain
        (newsNotification [("items", .obj [("id", .num 1)])]) = .ok d ∧
      NotificationDict.ofDict d = some n ∧
      applePush.sendNotificationTask PushLibraries.plain n = .ok message ∧
      message.Genuine n.notificationType := by
  obtain ⟨d, n, message, hload, hn, hsend, hextra⟩ :
      ∃ d n message, loadNotification NotificationMallow.plain
          (newsNotification [("items", .obj [("id", .num 1)])]) = .ok d ∧
        NotificationDict.ofDict d = some n ∧
        applePush.sendNotificationTask PushLibraries.plain n = .ok message ∧
        n.extra.lookup "notification_type" = none := ⟨_, _, _, rfl, rfl, rfl, rfl⟩
  refine ⟨d, n, message, hload, hn, hsend, ?_⟩
  refine (genuine_iff NotificationMallow.documented_plain hload hn hsend).mpr fun v hv => ?_
  rw [hextra] at hv
  cases hv

/-- A client that rings the phone of a user. -/
theorem forged_incomingCall :
    ∃ d n message, loadNotification NotificationMallow.plain
        (newsNotification [("notification_type", .str "incomingCall")]) = .ok d ∧
      NotificationDict.ofDict d = some n ∧ n.notificationType = "news" ∧
      applePush.sendNotificationTask PushLibraries.plain n = .ok message ∧
      message.notificationType = some (.str "incomingCall") ∧ ¬ message.Generic ∧
      ¬ message.Genuine n.notificationType := by
  obtain ⟨d, n, message, hload, hn, htype, hsend, hforged, hvoip⟩ :
      ∃ d n message, loadNotification NotificationMallow.plain
          (newsNotification [("notification_type", .str "incomingCall")]) = .ok d ∧
        NotificationDict.ofDict d = some n ∧ n.notificationType = "news" ∧
        applePush.sendNotificationTask PushLibraries.plain n = .ok (.apns message) ∧
        (PushMessage.apns message).notificationType = some (.str "incomingCall") ∧
        message.headers.apnsPushType = "voip" := ⟨_, _, _, rfl, rfl, rfl, rfl, rfl, rfl⟩
  have hspecial : ¬ (PushMessage.apns message).Generic := by
    rintro ⟨halert, -⟩
    simp [hvoip] at halert
  exact ⟨d, n, _, hload, hn, htype, hsend, hforged, hspecial, fun h => hspecial h.generic⟩

end WazoWebhookd

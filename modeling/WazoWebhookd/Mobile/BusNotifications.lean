import WazoWebhookd.Library.JsonText
import WazoWebhookd.Mobile.FcmPayload

/-! The notifications that are built from the events of the bus, and the data that they and those
of the clients of the API send to FCM v1. -/
namespace WazoWebhookd

/-- What `send_notification` is called with for an event. -/
structure BusNotification where
  notificationType : NotificationType
  messageTitle : Option String := none
  messageBody : Option String := none
  items : List (String × Json)
  dataOnly : Bool := false

def mapNameToNotificationType : List (String × NotificationType) :=
  [("user_voicemail_message_created", .voicemailReceived),
    ("global_voicemail_message_created", .voicemailReceived),
    ("call_push_notification", .incomingCall),
    ("call_cancel_push_notification", .cancelIncomingCall),
    ("chatd_user_room_message_created", .messageReceived),
    ("user_missed_call", .missedCall)]

namespace BusNotification

/-- `str`, for the f-strings, and the time. -/
structure Formats where
  str : Json → String
  timestamp : String

variable (formats : Formats) (data : List (String × Json))

/-- `data | {'notification_timestamp': generate_timestamp()}`. -/
def stamped : List (String × Json) :=
  KeyedList.setItem "notification_timestamp" (.str formats.timestamp) data

/-- `data.get(key) or default`. -/
def getOr (key default : String) : Json :=
  ((data.lookup key).filter Json.truthy).getD (.str default)

def cancelIncomingCall : Except PushError BusNotification :=
  .ok {
    notificationType := .cancelIncomingCall
    items := stamped formats data
    dataOnly := true }

def incomingCall : Except PushError BusNotification :=
  match (stamped formats data).lookup "peer_caller_id_number" with
  | none => .error (.keyError "peer_caller_id_number")
  | some number => .ok {
      notificationType := .incomingCall
      messageTitle := some "Incoming Call"
      messageBody := some ("From: " ++ formats.str number)
      items := stamped formats data }

def voicemailReceived : Except PushError BusNotification :=
  match ((stamped formats data).lookup "message").getD (.obj []) with
  | .obj message =>
    let callerName := (message.lookup "caller_id_name").getD (.str "Unknown")
    let callerNumber := (message.lookup "caller_id_num").getD (.str "")
    .ok {
      notificationType := .voicemailReceived
      messageTitle := some "New Voicemail"
      messageBody := some ("From: " ++ formats.str callerName ++ " (" ++
        formats.str callerNumber ++ ")")
      items := stamped formats data
      dataOnly := true }
  | _ => .error (.exception "object has no attribute 'get'")

/-- Long messages are truncated. A list or an object, which only APNS would take as it is, is here
given as its text. -/
def contentBody : Json → Except PushError String
  | .str content =>
    .ok (if 100 < content.length then String.ofList (content.toList.take 97) ++ "..." else content)
  | .arr items => if 100 < items.length then .error .typeError else .ok (formats.str (.arr items))
  | .obj fields =>
    if 100 < fields.length then .error .typeError else .ok (formats.str (.obj fields))
  | _ => .error .typeError

def messageReceived : Except PushError BusNotification := do
  let sender := getOr (stamped formats data) "alias" "[Unknown]"
  let body ← contentBody formats (getOr (stamped formats data) "content" "")
  pure {
    notificationType := .messageReceived
    messageTitle := some ("New Message from " ++ formats.str sender)
    messageBody := some body
    items := stamped formats data
    dataOnly := true }

def missedCall : Except PushError BusNotification :=
  let callerName := (data.lookup "caller_id_name").getD .null
  let callerNumber := (data.lookup "caller_id_number").getD .null
  .ok {
    notificationType := .missedCall
    messageTitle := some "Missed Call"
    messageBody := some ("From: " ++
      formats.str (getOr data "caller_id_name" "<name unknown>") ++ " (" ++
      formats.str (getOr data "caller_id_number" "<number unknown>") ++ ")")
    items := [("notification_timestamp", .str formats.timestamp), ("caller_id_name", callerName),
      ("caller_id_number", callerNumber)]
    dataOnly := true }

/-- `getattr(push, notification_type)(data)`, up to the call of `send_notification`. -/
def build : NotificationType → Except PushError BusNotification
  | .cancelIncomingCall => cancelIncomingCall formats data
  | .incomingCall => incomingCall formats data
  | .voicemailReceived => voicemailReceived formats data
  | .messageReceived => messageReceived formats data
  | .missedCall => missedCall formats data
  | .plugin => .error (.exception "'PushNotification' object has no attribute 'plugin'")

/-- The items that are sent, with the flag of the notifications without a text. -/
def sentItems (n : BusNotification) : Json :=
  .obj (if n.dataOnly then KeyedList.setItem "data_only" (.bool true) n.items else n.items)

end BusNotification

/-- The event of a bus hook, and the user whose events are asked for. -/
structure MobileEvent where
  eventsUserUuid : Option String
  name : String
  data : List (String × Json)

namespace PushNotification
variable (libs : PushLibraries) (self : PushNotification)

/-- The external config has the account that FCM v1 is called with. -/
def HasServiceAccount : Prop := (truthy self.externalConfig.fcmServiceAccountInfo).isSome

def notify (n : BusNotification) : Except PushError PushMessage :=
  self.sendNotification libs n.notificationType.value n.messageTitle n.messageBody
    (some (Finmap.singleton "items" (.obj n.items))) n.dataOnly

/-- `Service.run`, up to the message; `none` where the event is not for the user. -/
def runMobile (externalData : String → Except PushError PushNotification)
    (formats : BusNotification.Formats) (event : MobileEvent) :
    Except PushError (Option PushMessage) :=
  match truthy event.eventsUserUuid with
  | none => .error (.exception "subscription doesn't have events_user_uuid set")
  | some userUuid =>
    if (event.data.lookup "user_uuid").bind Json.asString = some userUuid ∧
        event.name = "chatd_user_room_message_created" then .ok none
    else do
      let push ← externalData userUuid
      match mapNameToNotificationType.lookup event.name with
      | none => pure none
      | some notificationType => do
        let n ← BusNotification.build formats event.data notificationType
        some <$> push.notify libs n

end PushNotification

/-- The `json` of the standard library, with the `repr` of the float of a text. -/
structure PushLibraries.Standard (libs : PushLibraries) (float : String → String) : Prop where
  dumps : ∀ v, libs.dumps v = v.dumps
  loads : ∀ {text v}, Json.loads float text = some v → libs.loads text = .ok v

/-- Every value of the data is a string, and the items are read back in theirs. -/
structure StringData (libs : PushLibraries) (items : Json) (data : NotificationPayload) :
    Prop where
  strings : ∀ key v, data.lookup key = some v → ∃ s, v = .str s
  items : items.truthy → ∃ text, data.lookup "items" = some (.str text) ∧
    libs.loads text = .ok items.sortKeys

/-- The data of the message are such strings. -/
def SendsStrings (libs : PushLibraries) (items : Json) (payload : FcmPayload) : Prop :=
  ∃ data, payload.lookup "data" = some (.data data) ∧ StringData libs items data

def NotificationDict.items (n : NotificationDict) : Json := (n.extra.lookup "items").getD (.obj [])

section Spec
variable {libs : PushLibraries} {float : String → String} {self : PushNotification}

theorem lookup_singleton_of_ne {key key' : String} (v : Json) (h : key ≠ key') :
    (Finmap.singleton key' v : LoadedDict).lookup key = none :=
  Finmap.lookup_eq_none.mpr fun hmem => h ((Finmap.mem_singleton _ _ _).mp hmem)

theorem keys_ne_empty {data : NotificationPayload} {key : String} {v : Json}
    (h : data.lookup key = some v) : data.keys ≠ ∅ := by
  have hmem : key ∈ data.keys := Finmap.mem_keys.mpr (Finmap.mem_iff.mpr ⟨v, h⟩)
  intro hempty
  rw [hempty] at hmem
  exact Finset.notMem_empty key hmem

theorem lookup_items_payloadOf (type : String) (extra : LoadedDict) :
    (PushNotification.payloadOf type extra).lookup "items" =
      some ((extra.lookup "items").getD (.obj [])) := by
  unfold PushNotification.payloadOf
  rw [Finmap.lookup_union_right Finmap.notMem_erase_self, Finmap.lookup_insert_of_ne _ (by decide),
    Finmap.lookup_singleton_eq]

theorem lookup_payloadOf_of_ne (type : String) (extra : LoadedDict) {key : String}
    (hitems : key ≠ "items") (htype : key ≠ "notification_type") :
    (PushNotification.payloadOf type extra).lookup key = extra.lookup key := by
  unfold PushNotification.payloadOf
  have herase : (extra.erase "items").lookup key = extra.lookup key :=
    Finmap.lookup_erase_ne hitems
  by_cases hmem : key ∈ extra.erase "items"
  · rw [Finmap.lookup_union_left hmem, herase]
  · rw [Finmap.lookup_union_right hmem, Finmap.lookup_insert_of_ne _ htype,
      lookup_singleton_of_ne _ hitems, ← herase, Finmap.lookup_eq_none.mpr hmem]

/-- With a service account, the items are a string and the other fields are as they were. -/
theorem stringData_fcmData {info : Json} {data : NotificationPayload} {items : Json}
    (hlibs : libs.Standard float) (hvalid : items.Valid float)
    (hitems : data.lookup "items" = some items) :
    StringData libs items (PushNotification.fcmData libs (.serviceAccountInfo info) data) ↔
      ∀ key ≠ "items", ∀ v, data.lookup key = some v → ∃ s, v = .str s := by
  have hself : (PushNotification.fcmData libs (.serviceAccountInfo info) data).lookup "items" =
      some (.str (if items.truthy then libs.dumps items else "")) := by
    unfold PushNotification.fcmData
    rw [hitems]
    exact Finmap.lookup_insert data
  have hother : ∀ key ≠ "items",
      (PushNotification.fcmData libs (.serviceAccountInfo info) data).lookup key =
        data.lookup key := fun key hkey => Finmap.lookup_insert_of_ne data hkey
  constructor
  · intro h key hkey v hv
    exact h.strings key v ((hother key hkey).trans hv)
  · intro h
    refine ⟨fun key v hv => ?_, fun htruthy => ?_⟩
    · by_cases hkey : key = "items"
      · subst hkey
        exact ⟨_, (Option.some.inj (hself.symm.trans hv)).symm⟩
      · exact h key hkey v ((hother key hkey).symm.trans hv)
    · rw [if_pos htruthy, hlibs.dumps] at hself
      exact ⟨_, hself, hlibs.loads (Json.loads_dumps hvalid)⟩

theorem credentials_of_fcmClient {credentials : FcmCredentials} {endPoint : FcmEndPoint}
    (hself : self.HasServiceAccount) (h : self.fcmClient libs = .ok (credentials, endPoint)) :
    ∃ info, credentials = .serviceAccountInfo info := by
  unfold PushNotification.fcmClient at h
  obtain ⟨raw, hraw⟩ := Option.isSome_iff_exists.mp hself
  rw [hraw] at h
  obtain ⟨info, -, h⟩ := Except.exists_of_bind_eq_ok h
  obtain ⟨_, -, h⟩ := Except.exists_of_bind_eq_ok h
  exact ⟨info, (congrArg Prod.fst (Except.ok.inj h)).symm⟩

/-- Whatever the type, the new client is given the data with its items in a string. -/
theorem dataMessage_of_sendViaFcm (hself : self.HasServiceAccount) {title body : Option String}
    {data : NotificationPayload} {dataOnly : Bool} {call : FcmCall}
    (h : self.sendViaFcm libs title body data dataOnly = .ok call) :
    ∃ info, call.dataMessage = PushNotification.fcmData libs (.serviceAccountInfo info) data := by
  obtain ⟨⟨credentials, endPoint⟩, hclient, h⟩ := Except.exists_of_bind_eq_ok h
  obtain ⟨info, rfl⟩ := credentials_of_fcmClient hself hclient
  obtain ⟨type, -, h⟩ := Except.exists_of_bind_eq_ok h
  obtain ⟨registration, -, h⟩ := Except.exists_of_bind_eq_ok h
  obtain rfl := Except.ok.inj h
  refine ⟨info, ?_⟩
  cases treatment type with
  | incomingCall => rfl
  | cancelIncomingCall => rfl
  | generic => cases dataOnly <;> rfl

theorem dataMessage_of_sendNotification (hself : self.HasServiceAccount) {type : String}
    {title body : Option String} {extra : LoadedDict} {dataOnly : Bool} {call : FcmCall}
    (h : self.sendNotification libs type title body (some extra) dataOnly = .ok (.fcm call)) :
    ∃ data info, PushNotification.markDataOnly dataOnly (PushNotification.payloadOf type extra) =
        .ok data ∧
      call.dataMessage = PushNotification.fcmData libs (.serviceAccountInfo info) data := by
  obtain ⟨data, hdata, h⟩ := Except.exists_of_bind_eq_ok h
  by_cases hapn : self.canSendToApn
  · rw [if_pos hapn] at h
    obtain ⟨message, -, heq⟩ := Except.exists_of_map_eq_ok h
    cases heq
  · rw [if_neg hapn] at h
    obtain ⟨call', hsend, heq⟩ := Except.exists_of_map_eq_ok h
    obtain rfl := PushMessage.fcm.inj heq
    obtain ⟨info, hmessage⟩ := dataMessage_of_sendViaFcm hself hsend
    exact ⟨data, info, hdata, hmessage⟩

/-- The message of FCM v1 has strings as its data if and only if the payload has, but for its
items. -/
theorem sendsStrings_iff {data : NotificationPayload} {call : FcmCall} {info items : Json}
    {payload : FcmPayload} (hlibs : libs.Standard float) (hvalid : items.Valid float)
    (hdata : call.dataMessage = PushNotification.fcmData libs (.serviceAccountInfo info) data)
    (hpayload : call.payload = .ok payload)
    (hitems : data.lookup "items" = some items) :
    SendsStrings libs items payload ↔
      ∀ key ≠ "items", ∀ v, data.lookup key = some v → ∃ s, v = .str s := by
  obtain ⟨text, htext⟩ : ∃ v, call.dataMessage.lookup "items" = some v := by
    rw [hdata]
    exact ⟨_, Finmap.lookup_insert data⟩
  have hsent := data_of_payload hpayload (keys_ne_empty htext)
  rw [← stringData_fcmData hlibs hvalid hitems, ← hdata]
  constructor
  · rintro ⟨sent, hlookup, hstrings⟩
    obtain rfl := FcmField.data.inj (Option.some.inj (hsent.symm.trans hlookup))
    exact hstrings
  · exact fun hstrings => ⟨call.dataMessage, hsent, hstrings⟩

theorem sendsStrings_notification_iff (hlibs : libs.Standard float)
    (hself : self.HasServiceAccount) {n : NotificationDict} (hvalid : n.items.Valid float)
    {call : FcmCall} {payload : FcmPayload}
    (hsend : self.sendNotificationTask libs n = .ok (.fcm call))
    (hpayload : call.payload = .ok payload) :
    SendsStrings libs n.items payload ↔
      ∀ key ≠ "items", ∀ v, n.extra.lookup key = some v → ∃ s, v = .str s := by
  obtain ⟨data, info, hmark, hdata⟩ := dataMessage_of_sendNotification hself hsend
  obtain rfl := Except.ok.inj hmark
  have hitems : (PushNotification.payloadOf n.notificationType n.extra).lookup "items" =
      some n.items := lookup_items_payloadOf _ _
  rw [sendsStrings_iff hlibs hvalid hdata hpayload hitems]
  refine forall₂_congr fun key hkey => ?_
  by_cases htype : key = "notification_type"
  · rw [htype, lookup_payloadOf]
    cases n.extra.lookup "notification_type" with
    | none => simp
    | some v => simp
  · rw [lookup_payloadOf_of_ne _ _ hkey htype]

theorem lookup_of_markDataOnly {n : BusNotification} {data : NotificationPayload}
    (h : PushNotification.markDataOnly n.dataOnly (PushNotification.payloadOf
      n.notificationType.value (Finmap.singleton "items" (.obj n.items))) = .ok data) :
    data.lookup "items" = some n.sentItems ∧ ∀ key ≠ "items",
      data.lookup key = (PushNotification.payloadOf n.notificationType.value
        (Finmap.singleton "items" (.obj n.items))).lookup key := by
  have hitems : (PushNotification.payloadOf n.notificationType.value
      (Finmap.singleton "items" (.obj n.items))).lookup "items" = some (.obj n.items) := by
    rw [lookup_items_payloadOf, Finmap.lookup_singleton_eq]
    rfl
  unfold PushNotification.markDataOnly at h
  unfold BusNotification.sentItems
  by_cases honly : n.dataOnly = true
  · rw [if_pos honly] at h ⊢
    unfold itemOf at h
    rw [hitems] at h
    obtain rfl := Except.ok.inj h
    exact ⟨Finmap.lookup_insert _, fun key hkey => Finmap.lookup_insert_of_ne _ hkey⟩
  · rw [if_neg honly] at h ⊢
    obtain rfl := Except.ok.inj h
    exact ⟨hitems, fun key _ => rfl⟩

theorem sendsStrings_notify (hlibs : libs.Standard float) (hself : self.HasServiceAccount)
    {n : BusNotification} (hvalid : n.sentItems.Valid float) {call : FcmCall}
    {payload : FcmPayload} (hsend : self.notify libs n = .ok (.fcm call))
    (hpayload : call.payload = .ok payload) : SendsStrings libs n.sentItems payload := by
  obtain ⟨data, info, hmark, hdata⟩ := dataMessage_of_sendNotification hself hsend
  obtain ⟨hitems, hother⟩ := lookup_of_markDataOnly hmark
  refine (sendsStrings_iff hlibs hvalid hdata hpayload hitems).mpr fun key hkey v hv => ?_
  rw [hother key hkey] at hv
  by_cases htype : key = "notification_type"
  · rw [htype, lookup_payloadOf, lookup_singleton_of_ne _ (by decide)] at hv
    exact ⟨_, (Option.some.inj hv).symm⟩
  · rw [lookup_payloadOf_of_ne _ _ hkey htype, lookup_singleton_of_ne _ hkey] at hv
    cases hv

theorem valid_of_build {formats : BusNotification.Formats} {data : List (String × Json)}
    (hdata : (Json.obj data).Valid float) {type : NotificationType} {n : BusNotification}
    (h : BusNotification.build formats data type = .ok n) : n.sentItems.Valid float := by
  have hstamped : (Json.obj (BusNotification.stamped formats data)).Valid float :=
    hdata.setItem _ (.str _)
  have hitems : (Json.obj n.items).Valid float := by
    cases type with
    | cancelIncomingCall =>
      obtain rfl := Except.ok.inj h
      exact hstamped
    | incomingCall =>
      simp only [BusNotification.build, BusNotification.incomingCall] at h
      split at h <;> cases h
      exact hstamped
    | voicemailReceived =>
      simp only [BusNotification.build, BusNotification.voicemailReceived] at h
      split at h <;> cases h
      exact hstamped
    | messageReceived =>
      obtain ⟨body, -, h⟩ := Except.exists_of_bind_eq_ok h
      obtain rfl := Except.ok.inj h
      exact hstamped
    | missedCall =>
      obtain rfl := Except.ok.inj h
      have hget : ∀ key, ((data.lookup key).getD .null).Valid float := by
        intro key
        cases hv : data.lookup key with
        | none => exact .null
        | some v => exact hdata.of_lookup hv
      have hkeys : ["notification_timestamp", "caller_id_name", "caller_id_number"].Nodup := by
        decide
      refine .obj hkeys fun p hp => ?_
      simp only [List.mem_cons, List.not_mem_nil, or_false] at hp
      rcases hp with rfl | rfl | rfl
      · exact .str _
      · exact hget _
      · exact hget _
    | plugin => cases h
  unfold BusNotification.sentItems
  split_ifs
  · exact hitems.setItem _ (.bool true)
  · exact hitems

theorem exists_notify_of_runMobile {externalData : String → Except PushError PushNotification}
    {formats : BusNotification.Formats} {event : MobileEvent} {message : PushMessage}
    (h : PushNotification.runMobile libs externalData formats event = .ok (some message)) :
    ∃ (userUuid : String) (push : PushNotification) (type : NotificationType)
      (n : BusNotification), truthy event.eventsUserUuid = some userUuid ∧
        externalData userUuid = .ok push ∧
        mapNameToNotificationType.lookup event.name = some type ∧
        BusNotification.build formats event.data type = .ok n ∧
        push.notify libs n = .ok message := by
  unfold PushNotification.runMobile at h
  cases huser : truthy event.eventsUserUuid with
  | none =>
    rw [huser] at h
    cases h
  | some userUuid =>
    rw [huser] at h
    dsimp only at h
    split_ifs at h
    · cases h
    obtain ⟨push, hpush, h⟩ := Except.exists_of_bind_eq_ok h
    cases htype : mapNameToNotificationType.lookup event.name with
    | none =>
      rw [htype] at h
      cases h
    | some type =>
      rw [htype] at h
      obtain ⟨n, hbuild, h⟩ := Except.exists_of_bind_eq_ok h
      obtain ⟨sent, hsend, heq⟩ := Except.exists_of_map_eq_ok h
      obtain rfl := Option.some.inj heq
      exact ⟨userUuid, push, type, n, rfl, hpush, rfl, hbuild, hsend⟩

end Spec

/-- A notification of a client sends strings to FCM v1 if and only if its extra fields, but for
the items, are strings; one of the bus always does. -/
theorem stringData_iff {mallow : NotificationMallow} (hm : mallow.Documented) {json : Json}
    {d : LoadedDict} (hload : loadNotification mallow json = .ok d) {libs : PushLibraries}
    {float : String → String} (hlibs : libs.Standard float) :
    (∃ n, NotificationDict.ofDict d = some n ∧
      ∀ (self : PushNotification) (call : FcmCall) (payload : FcmPayload),
        self.HasServiceAccount → self.sendNotificationTask libs n = .ok (.fcm call) →
        call.payload = .ok payload → n.items.Valid float →
        (SendsStrings libs n.items payload ↔
          ∀ key ≠ "items", ∀ v, n.extra.lookup key = some v → ∃ s, v = .str s)) ∧
    ∀ (externalData : String → Except PushError PushNotification)
      (formats : BusNotification.Formats) (event : MobileEvent) (call : FcmCall)
      (payload : FcmPayload),
      (∀ userUuid self, externalData userUuid = .ok self → self.HasServiceAccount) →
      PushNotification.runMobile libs externalData formats event = .ok (some (.fcm call)) →
      call.payload = .ok payload → (Json.obj event.data).Valid float →
      ∃ type n, mapNameToNotificationType.lookup event.name = some type ∧
        BusNotification.build formats event.data type = .ok n ∧
        SendsStrings libs n.sentItems payload := by
  refine ⟨?_, ?_⟩
  · obtain ⟨n, hn, -⟩ := exists_notification_of_load hm hload
    exact ⟨n, hn, fun self call payload hself hsend hpayload hvalid =>
      sendsStrings_notification_iff hlibs hself hvalid hsend hpayload⟩
  · intro externalData formats event call payload hself hrun hpayload hvalid
    obtain ⟨userUuid, push, type, n, -, hpush, htype, hbuild, hsend⟩ :=
      exists_notify_of_runMobile hrun
    exact ⟨type, n, htype, hbuild, sendsStrings_notify hlibs (hself _ _ hpush)
      (valid_of_build hvalid hbuild) hsend hpayload⟩

def PushLibraries.standard : PushLibraries where
  loads text := match Json.loads id text with
    | some v => .ok v
    | none => .error (.exception "Expecting value")
  dumps := Json.dumps
  connect _ := .ok ()

theorem PushLibraries.standard_standard : PushLibraries.standard.Standard id where
  dumps _ := rfl
  loads := by
    intro text v h
    simp only [PushLibraries.standard, h]

def androidPush : PushNotification where
  config := applePush.config
  externalTokens := Finmap.singleton "token" (some "t")
  externalConfig := { applePush.externalConfig with fcmServiceAccountInfo := some "\x7b\x7d" }
  jwt := none

theorem fcmClient_androidPush :
    androidPush.fcmClient PushLibraries.standard = .ok (.serviceAccountInfo (.obj []), .v1) := by
  have hvalid : (Json.obj []).Valid id := .obj List.nodup_nil nofun
  have hdumps : (Json.obj []).dumps = "\x7b\x7d" := rfl
  have hread := Json.loads_dumps hvalid
  rw [hdumps] at hread
  have hraw : truthy androidPush.externalConfig.fcmServiceAccountInfo = some "\x7b\x7d" := rfl
  unfold PushNotification.fcmClient
  rw [hraw]
  dsimp only
  rw [PushLibraries.standard_standard.loads hread]
  rfl

theorem exists_call_androidPush {n : NotificationDict} (htype : n.notificationType = "news")
    (hextra : n.extra.lookup "notification_type" = none) :
    ∃ call payload, androidPush.sendNotificationTask PushLibraries.standard n = .ok (.fcm call) ∧
      call.payload = .ok payload := by
  have hitem : itemOf (PushNotification.payloadOf n.notificationType n.extra)
      "notification_type" = .ok (.str "news") := by
    refine itemOf_of_lookup ((lookup_payloadOf _ _).trans ?_)
    rw [hextra, htype]
    rfl
  have hsend : androidPush.sendNotificationTask PushLibraries.standard n =
      (androidPush.sendViaFcm PushLibraries.standard (some n.title) (some n.body)
        (PushNotification.payloadOf n.notificationType n.extra) false).map .fcm := rfl
  obtain ⟨call, hcall, htoken⟩ : ∃ call, androidPush.sendViaFcm PushLibraries.standard
      (some n.title) (some n.body) (PushNotification.payloadOf n.notificationType n.extra) false =
        .ok call ∧ call.registration = some "t" := by
    unfold PushNotification.sendViaFcm
    rw [fcmClient_androidPush]
    dsimp only [Bind.bind, Except.bind]
    rw [hitem]
    exact ⟨_, rfl, rfl⟩
  have hregistered : call.registration ≠ none := by simp [htoken]
  obtain ⟨payload, hpayload⟩ := exists_payload hregistered
  rw [hsend, hcall]
  exact ⟨call, payload, rfl, hpayload⟩

theorem stringData_news :
    ∃ d n call payload, loadNotification NotificationMallow.plain
        (newsNotification [("items", .obj [("id", .num 1)]), ("plugin", .str "test")]) = .ok d ∧
      NotificationDict.ofDict d = some n ∧
      androidPush.sendNotificationTask PushLibraries.standard n = .ok (.fcm call) ∧
      call.payload = .ok payload ∧ SendsStrings PushLibraries.standard n.items payload := by
  obtain ⟨d, n, hload, hn, htype, hitems, hextra⟩ :
      ∃ d n, loadNotification NotificationMallow.plain
          (newsNotification [("items", .obj [("id", .num 1)]), ("plugin", .str "test")]) = .ok d ∧
        NotificationDict.ofDict d = some n ∧ n.notificationType = "news" ∧
        n.items = .obj [("id", .num 1)] ∧
        n.extra = dictOfFields [("items", .obj [("id", .num 1)]), ("plugin", .str "test")] :=
    ⟨_, _, rfl, rfl, rfl, rfl, rfl⟩
  have hnone : n.extra.lookup "notification_type" = none := by
    rw [hextra]
    rfl
  obtain ⟨call, payload, hsend, hpayload⟩ := exists_call_androidPush htype hnone
  obtain ⟨n', hn', hspec⟩ := (stringData_iff NotificationMallow.documented_plain hload
    PushLibraries.standard_standard).1
  obtain rfl : n = n' := Option.some.inj (hn.symm.trans hn')
  have hvalid : n.items.Valid id := by
    rw [hitems]
    refine .obj (by decide) fun p hp => ?_
    rw [List.mem_singleton.mp hp]
    exact .num 1
  have hself : androidPush.HasServiceAccount := rfl
  refine ⟨d, n, call, payload, hload, hn, hsend, hpayload, ?_⟩
  refine (hspec androidPush call payload hself hsend hpayload hvalid).mpr fun key hkey v hv => ?_
  rw [hextra] at hv
  change ((∅ : LoadedDict).insert "items" (.obj [("id", .num 1)])
    |>.insert "plugin" (.str "test")).lookup key = some v at hv
  by_cases hplugin : key = "plugin"
  · rw [hplugin, Finmap.lookup_insert] at hv
    exact ⟨_, (Option.some.inj hv).symm⟩
  · rw [Finmap.lookup_insert_of_ne _ hplugin, Finmap.lookup_insert_of_ne _ hkey,
      Finmap.lookup_empty] at hv
    cases hv

/-- The extra field of the test of the legacy API, sent to the new one. -/
theorem nested_extra_not_string :
    ∃ d n call payload, loadNotification NotificationMallow.plain
        (newsNotification [("plugin", .obj [("id", .str "test")])]) = .ok d ∧
      NotificationDict.ofDict d = some n ∧ androidPush.HasServiceAccount ∧
      androidPush.sendNotificationTask PushLibraries.standard n = .ok (.fcm call) ∧
      call.payload = .ok payload ∧
      ∃ data, payload.lookup "data" = some (.data data) ∧
        data.lookup "plugin" = some (.obj [("id", .str "test")]) ∧
        ¬ SendsStrings PushLibraries.standard n.items payload := by
  obtain ⟨d, n, hload, hn, htype, hitems, hextra⟩ :
      ∃ d n, loadNotification NotificationMallow.plain
          (newsNotification [("plugin", .obj [("id", .str "test")])]) = .ok d ∧
        NotificationDict.ofDict d = some n ∧ n.notificationType = "news" ∧
        n.items = .obj [] ∧ n.extra = dictOfFields [("plugin", .obj [("id", .str "test")])] :=
    ⟨_, _, rfl, rfl, rfl, rfl, rfl⟩
  have hnone : n.extra.lookup "notification_type" = none := by
    rw [hextra]
    rfl
  have hplugin : n.extra.lookup "plugin" = some (.obj [("id", .str "test")]) := by
    rw [hextra]
    rfl
  have hself : androidPush.HasServiceAccount := rfl
  obtain ⟨call, payload, hsend, hpayload⟩ := exists_call_androidPush htype hnone
  obtain ⟨data, info, hmark, hdata⟩ := dataMessage_of_sendNotification hself hsend
  obtain rfl := Except.ok.inj hmark
  have hsent : call.dataMessage.lookup "plugin" = some (.obj [("id", .str "test")]) := by
    rw [hdata]
    unfold PushNotification.fcmData
    rw [Finmap.lookup_insert_of_ne _ (by decide),
      lookup_payloadOf_of_ne _ _ (by decide) (by decide), hplugin]
  have hkeys := keys_ne_empty hsent
  refine ⟨d, n, call, payload, hload, hn, hself, hsend, hpayload, call.dataMessage,
    data_of_payload hpayload hkeys, hsent, ?_⟩
  rintro ⟨data, hlookup, hstrings⟩
  obtain rfl := FcmField.data.inj (Option.some.inj
    ((data_of_payload hpayload hkeys).symm.trans hlookup))
  obtain ⟨s, hs⟩ := hstrings.strings "plugin" _ hsent
  cases hs

end WazoWebhookd

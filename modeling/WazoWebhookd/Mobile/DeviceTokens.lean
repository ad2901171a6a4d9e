import WazoWebhookd.Mobile.PushNotification

/-! The device token of a message for APNS: how the decision to use APNS and the later choice of a
token agree. -/
namespace WazoWebhookd

def deviceTokenKeys : List String := ["apns_voip_token", "apns_notification_token", "apns_token"]

namespace PushNotification
variable (push : PushNotification)

/-- A string that is not empty, under one of the keys of the map. -/
structure Uploaded (token : String) : Prop where
  ne_empty : token ≠ ""
  mem : ∃ key ∈ deviceTokenKeys, push.externalTokens.lookup key = some (some token)

def deviceUrl (token : String) : String :=
  let host :=
    if push.externalConfig.useSandbox && push.config.mobileApnsHost = "api.push.apple.com" then
      "api.sandbox.push.apple.com"
    else push.config.mobileApnsHost
  "https://" ++ host ++ ":" ++ toString push.config.mobileApnsPort ++ "/3/device/" ++ token

/-- A message goes to a device of the map, or there is a `NotificationError`. -/
structure Addressed (messageTitle messageBody : Option String) (data : NotificationPayload)
    (dataOnly : Bool) : Prop where
  message : (∃ headers payload token, push.Uploaded token ∧
      push.createApnMessage messageTitle messageBody data dataOnly =
        .ok (headers, payload, some token)) ∨
    ∃ details, push.createApnMessage messageTitle messageBody data dataOnly =
      .error (.notificationError details)
  no_keyError : ∀ key, push.sendViaApn messageTitle messageBody data dataOnly ≠
    .error (.keyError key)
  request : ∀ message, push.sendViaApn messageTitle messageBody data dataOnly = .ok message →
    ∃ token, push.Uploaded token ∧ message.url = push.deviceUrl token

/-- The map has a token for messages of that treatment, or not even its key. -/
def HasTokenFor : Treatment → Prop
  | .incomingCall => (push.token "apns_voip_token").isSome ∨ (push.token "apns_token").isSome
  | .cancelIncomingCall | .generic =>
    push.externalTokens.lookup "apns_notification_token" = none ∨
      (push.token "apns_notification_token").isSome

/-- A choice that leads to a device, or to the error that tells of a missing token. -/
def Proper (choice : Except PushError (Option String)) : Prop :=
  (∃ token, push.Uploaded token ∧ choice = .ok (some token)) ∨
    ∃ details, choice = .error (.notificationError details)

end PushNotification

section Spec
open PushNotification
variable {push : PushNotification} {title body : Option String} {data : NotificationPayload}
  {dataOnly : Bool} {type : Json}

theorem token_eq_some_iff {key token : String} :
    push.token key = some token ↔
      push.externalTokens.lookup key = some (some token) ∧ token ≠ "" := by
  unfold PushNotification.token
  rcases h : push.externalTokens.lookup key with _ | _ | value
  · simp
  · simp
  · by_cases hempty : value = ""
    · subst hempty
      simp [truthy, eq_comm]
    · have hvalue : truthy (some value) = some value := truthy_of_ne (by simpa using hempty)
      have hsame : value = token → token ≠ "" := fun heq => heq ▸ hempty
      simpa [hvalue] using hsame

theorem uploaded_of_token {key token : String} (hkey : key ∈ deviceTokenKeys)
    (h : push.token key = some token) : push.Uploaded token := by
  obtain ⟨hlookup, hne⟩ := token_eq_some_iff.mp h
  exact ⟨hne, key, hkey, hlookup⟩

/-- What is under the key is a device token exactly when it is true. -/
theorem proper_ok_iff {key : String} (hkey : key ∈ deviceTokenKeys) {value : Option String}
    (h : push.externalTokens.lookup key = some value) :
    push.Proper (.ok value) ↔ (push.token key).isSome := by
  constructor
  · rintro (⟨token, hup, hvalue⟩ | ⟨details, hvalue⟩)
    · have hsome : value = some token := Except.ok.inj hvalue
      have htoken : push.token key = some token :=
        token_eq_some_iff.mpr ⟨hsome ▸ h, hup.ne_empty⟩
      rw [htoken]
      rfl
    · cases hvalue
  · intro hsome
    obtain ⟨token, htoken⟩ := Option.isSome_iff_exists.mp hsome
    have hlookup := (token_eq_some_iff.mp htoken).1
    obtain rfl : some token = value := Option.some.inj (hlookup.symm.trans h)
    exact .inl ⟨token, uploaded_of_token hkey htoken, rfl⟩

theorem proper_notification : push.Proper (push.apnToken .generic) ↔ push.HasTokenFor .generic := by
  unfold apnToken HasTokenFor
  cases hlookup : push.externalTokens.lookup "apns_notification_token" with
  | none => simp [Proper]
  | some value =>
    have hkey : "apns_notification_token" ∈ deviceTokenKeys := by simp [deviceTokenKeys]
    simp [proper_ok_iff hkey hlookup]

theorem proper_incomingCall :
    push.Proper (push.apnToken .incomingCall) ↔ push.HasTokenFor .incomingCall := by
  unfold apnToken HasTokenFor
  cases hvoip : push.token "apns_voip_token" with
  | some token =>
    have hkey : "apns_voip_token" ∈ deviceTokenKeys := by simp [deviceTokenKeys]
    have hup := uploaded_of_token hkey hvoip
    simpa [Proper] using hup
  | none =>
    cases hlookup : push.externalTokens.lookup "apns_token" with
    | none => simp [Proper, PushNotification.token, hlookup]
    | some value =>
      have hkey : "apns_token" ∈ deviceTokenKeys := by simp [deviceTokenKeys]
      simp [proper_ok_iff hkey hlookup]

theorem proper_apnToken_iff (t : Treatment) :
    push.Proper (push.apnToken t) ↔ push.HasTokenFor t := by
  cases t with
  | incomingCall => exact proper_incomingCall
  | cancelIncomingCall => exact proper_notification
  | generic => exact proper_notification

theorem createApnMessage_of_type (htype : data.lookup "notification_type" = some type) :
    push.createApnMessage title body data dataOnly =
      (push.apnToken (treatment type)).map fun token =>
        ((push.apnContent title body data dataOnly (treatment type)).1,
          (push.apnContent title body data dataOnly (treatment type)).2, token) := by
  unfold createApnMessage
  rw [itemOf_of_lookup htype]
  rfl

theorem sendViaApn_of_token (title body : Option String) (dataOnly : Bool) {token : String}
    (htype : data.lookup "notification_type" = some type)
    (h : push.apnToken (treatment type) = .ok (some token)) :
    ∃ message, push.sendViaApn title body data dataOnly = .ok message ∧
      message.url = push.deviceUrl token := by
  unfold sendViaApn
  rw [createApnMessage_of_type htype, h]
  exact ⟨_, rfl, rfl⟩

theorem sendViaApn_of_error (title body : Option String) (dataOnly : Bool) {e : PushError}
    (htype : data.lookup "notification_type" = some type)
    (h : push.apnToken (treatment type) = .error e) :
    push.sendViaApn title body data dataOnly = .error e := by
  unfold sendViaApn
  rw [createApnMessage_of_type htype, h]
  rfl

theorem addressed_iff_proper (htype : data.lookup "notification_type" = some type) :
    push.Addressed title body data dataOnly ↔ push.Proper (push.apnToken (treatment type)) := by
  constructor
  · intro h
    have hmessage := h.message
    rw [createApnMessage_of_type htype] at hmessage
    rcases hmessage with ⟨headers, payload, token, hup, hok⟩ | ⟨details, herror⟩
    · obtain ⟨token', htoken, heq⟩ := Except.exists_of_map_eq_ok hok
      obtain rfl : token' = some token := congrArg (·.2.2) heq
      exact .inl ⟨token, hup, htoken⟩
    · cases hchoice : push.apnToken (treatment type) with
      | ok token => simp [hchoice, Except.map] at herror
      | error e =>
        obtain rfl : e = .notificationError details := by
          simpa [hchoice, Except.map] using herror
        exact .inr ⟨details, rfl⟩
  · rintro (⟨token, hup, hchoice⟩ | ⟨details, hchoice⟩)
    · obtain ⟨message, hsend, hurl⟩ := sendViaApn_of_token title body dataOnly htype hchoice
      constructor
      · exact .inl ⟨_, _, token, hup, by rw [createApnMessage_of_type htype, hchoice]; rfl⟩
      · simp [hsend]
      · intro message' hsend'
        obtain rfl : message = message' := Except.ok.inj (hsend.symm.trans hsend')
        exact ⟨token, hup, hurl⟩
    · have hsend := sendViaApn_of_error title body dataOnly htype hchoice
      constructor
      · exact .inr ⟨details, by rw [createApnMessage_of_type htype, hchoice]; rfl⟩
      · simp [hsend]
      · simp [hsend]

/-- What makes the user one for APNS is not always what the message needs. -/
theorem addressed_iff (htype : data.lookup "notification_type" = some type) :
    (push.canSendToApn → push.Addressed title body data dataOnly) ↔
      (push.canSendToApn → push.HasTokenFor (treatment type)) := by
  rw [addressed_iff_proper htype, proper_apnToken_iff]

end Spec

def PushNotification.withTokens (tokens : StringDict) : PushNotification :=
  { applePush with externalTokens := tokens }

theorem addressed_news :
    applePush.canSendToApn ∧
      applePush.Addressed (some "News") none (PushNotification.payloadOf "news" ∅) false := by
  have htype : (PushNotification.payloadOf "news" ∅).lookup "notification_type" =
      some (.str "news") := lookup_payloadOf "news" ∅
  have hapn : applePush.canSendToApn := rfl
  exact ⟨hapn, (addressed_iff htype).mpr (fun _ => .inr rfl) hapn⟩

/-- A call for a device with the token of the other notifications only, and a message for a device
with the token of the calls only. -/
theorem incomingCall_keyError :
    (∃ push : PushNotification, push.canSendToApn ∧
      push.sendViaApn none none (PushNotification.payloadOf "incomingCall" ∅) false =
        .error (.keyError "apns_token") ∧
      ¬ push.Addressed none none (PushNotification.payloadOf "incomingCall" ∅) false) ∧
    ∃ push : PushNotification, push.canSendToApn ∧
      (∃ message, push.sendViaApn none none (PushNotification.payloadOf "news" ∅) false =
          .ok message ∧ message.url = "https://api.push.apple.com:443/3/device/None") ∧
      ¬ push.Addressed none none (PushNotification.payloadOf "news" ∅) false := by
  constructor
  · have hkey : (PushNotification.withTokens
        (Finmap.singleton "apns_notification_token" (some "n"))).sendViaApn none none
          (PushNotification.payloadOf "incomingCall" ∅) false = .error (.keyError "apns_token") :=
      rfl
    exact ⟨_, rfl, hkey, fun h => h.no_keyError _ hkey⟩
  · refine ⟨.withTokens ((Finmap.singleton "apns_voip_token" (some "v")).insert
      "apns_notification_token" none), rfl, ⟨_, rfl, rfl⟩, fun h => ?_⟩
    have htype : (PushNotification.payloadOf "news" ∅).lookup "notification_type" =
        some (.str "news") := lookup_payloadOf "news" ∅
    rcases (addressed_iff htype).mp (fun _ => h) rfl with hnone | hsome
    · cases hnone
    · cases hsome

end WazoWebhookd

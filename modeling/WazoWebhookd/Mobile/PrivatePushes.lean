import WazoWebhookd.Mobile.DeviceTokens
import WazoWebhookd.Mobile.ExternalData
import WazoWebhookd.Mobile.MobileHooks
import WazoWebhookd.Subscription.PrivateHooks

/-! The pushes of users: the devices they go to, over all that users and wazo-auth can have the
daemon do. -/
namespace WazoWebhookd
open Failing SubscriptionService MobileService HeadersExchange

section Preserves
variable {master : String} {P : Subscription → Prop}

theorem holds_delete (fault : Option Fault) (uuid : String) (tenants : List String)
    (user : Option String) :
    Preserves (World.Holds master P) (delete master fault uuid tenants user) := by
  intro w hw
  have hcall : (exec ((ServiceCall.delete uuid tenants user).run master fault) w).2 =
      (exec (delete master fault uuid tenants user) w).2 := ServiceCall.run_world _
  have hversion : ∀ n, (ServiceCall.delete uuid tenants user).announced w.database = some n →
      ∀ s, n.version = some s → P s := by
    intro n hn s hs
    obtain ⟨t, -, rfl⟩ := ServiceCall.announced_delete hn
    cases hs
  rw [← hcall]
  exact hw.call fault hversion

theorem holds_createMobile (fault : Option Fault) {newUuid userUuid tenantUuid : String}
    (hnew : P (created newUuid userUuid tenantUuid)) :
    Preserves (World.Holds master P)
      (create master fault newUuid (newSubscription userUuid tenantUuid)) := by
  intro w hw
  have hcall :
      (exec ((ServiceCall.create newUuid (newSubscription userUuid tenantUuid)).run master fault)
        w).2 = (exec (create master fault newUuid (newSubscription userUuid tenantUuid)) w).2 :=
    ServiceCall.run_world _
  have hversion : ∀ n, (ServiceCall.create newUuid (newSubscription userUuid
      tenantUuid)).announced w.database = some n → ∀ s, n.version = some s → P s := by
    intro n hn s hs
    obtain ⟨tenant, htenant, rfl, -⟩ := ServiceCall.announced_create hn
    cases htenant
    cases hs
    exact hnew
  rw [← hcall]
  exact hw.call fault hversion

theorem holds_deletePresent (fault : Option Fault) (uuid : String) :
    Preserves (World.Holds master P) (deletePresent master fault uuid) := by
  refine (holds_delete fault uuid [] none).tryCatch ?_
  intro e
  cases e with
  | noSuchSubscription uuid => exact (reads_pure ()).preserves
  | _ => exact fun _ hw => hw

theorem holds_onDeletedEvent (fault : Option Fault) (iteration : SetIteration)
    (event : AuthEvent) :
    Preserves (World.Holds master P) (onDeletedEvent master fault iteration event) := by
  cases event with
  | tenantDeleted tenantUuid =>
    refine (reads_list _ _ _ _ _).preserves.bind fun subscriptions => ?_
    exact preserves_forM fun s _ => holds_deletePresent fault s.uuid
  | userDeleted userUuid =>
    refine (reads_list _ _ _ _ _).preserves.bind fun owned => ?_
    refine (reads_list _ _ _ _ _).preserves.bind fun listened => ?_
    exact preserves_forM fun uuid _ => holds_deletePresent fault uuid

theorem holds_onExternalAuth (fault : Option Fault) (rowOrder : RowOrder) (newUuid : String)
    (event : ExternalAuthEvent)
    (hnew : event.externalAuthName = some "mobile" → event.kind ≠ .deleted →
      P (created newUuid event.userUuid event.tenantUuid)) :
    Preserves (World.Holds master P) (onExternalAuth master fault rowOrder newUuid event) := by
  have hlist : ∀ userUuid tenantUuid, Reads (listMobile fault rowOrder userUuid tenantUuid) :=
    fun _ _ => (reads_list _ _ _ _ _).bind fun _ => reads_pure _
  have hdelete : ∀ subscriptions,
      Preserves (World.Holds master P) (deleteAll master fault subscriptions) :=
    fun _ => preserves_forM fun uuid _ => holds_delete fault uuid [] none
  have hensure : event.externalAuthName = some "mobile" → event.kind ≠ .deleted →
      Preserves (World.Holds master P) (ensureMobileSubscription master fault rowOrder newUuid
        event.userUuid event.tenantUuid) := by
    intro hname hkind
    refine (hlist _ _).preserves.bind fun subscriptions => ?_
    match subscriptions with
    | [] =>
      exact (holds_createMobile fault (hnew hname hkind)).bind fun _ => (reads_pure ()).preserves
    | [_] => exact (reads_pure ()).preserves
    | _ :: s :: rest => exact hdelete (s :: rest)
  unfold onExternalAuth
  split_ifs with hname
  · cases hkind : event.kind with
    | deleted => exact (hlist _ _).preserves.bind hdelete
    | added => exact hensure hname (by simp [hkind])
    | updated => exact hensure hname (by simp [hkind])
  · exact (reads_pure ()).preserves

end Preserves

/-- What users and wazo-auth have the daemon do; any step of a handler may fail. -/
inductive PushStep
  | user (l : UserStep)
  | externalAuth (fault : Option Fault) (l : ExternalAuthStep)
  | deleted (fault : Option Fault) (iteration : SetIteration) (event : AuthEvent)

/-- A user of a tenant had the subscription created: by a request, or by the external auth. -/
inductive AskedBy (history : List PushStep) : String → String → String → Prop
  | post {token : Token} {fault : Option Fault} {uuid : String} {json : Json} :
    .user (.request token fault (.post uuid json)) ∈ history →
      AskedBy history uuid token.userUuid token.tenantUuid
  | externalAuth {fault : Option Fault} {l : ExternalAuthStep} :
    .externalAuth fault l ∈ history → l.event.externalAuthName = some "mobile" →
      AskedBy history l.newUuid l.event.userUuid l.event.tenantUuid

/-- The subscription is for the user who had it created. -/
structure ForAsker (history : List PushStep) (s : Subscription) (userUuid : String) : Prop where
  asked : AskedBy history s.uuid userUuid s.ownerTenantUuid
  ownerUser : s.ownerUserUuid = some userUuid
  eventsUser : s.eventsUserUuid = some userUuid
  userUuid_ne : userUuid ≠ ""

section Steps
variable (mallow : AdminMallow) (text : Json → Option String) (master : String)

def World.pushStep (w : World) : PushStep → World
  | .user l => w.userStep mallow text master l
  | .externalAuth fault l =>
    (exec (onExternalAuth master fault l.rowOrder l.newUuid l.event) w).2
  | .deleted fault iteration event => (exec (onDeletedEvent master fault iteration event) w).2

def World.ListsPush (w : World) : PushStep → Prop
  | .user l => w.Lists l
  | _ => True

variable {mallow text master} {w : World} {history : List PushStep}

theorem ForAsker.congr {s s' : Subscription} {userUuid : String} (hsame : SameOwnership s s')
    (h : ForAsker history s userUuid) : ForAsker history s' userUuid where
  asked := by
    rw [hsame.uuid, hsame.ownerTenant]
    exact h.asked
  ownerUser := hsame.ownerUser.trans h.ownerUser
  eventsUser := hsame.eventsUser.trans h.eventsUser
  userUuid_ne := h.userUuid_ne

theorem World.Holds.pushStep (hm : mallow.toMallow.Documented)
    (hw : w.Holds master fun s => ∃ userUuid, ForAsker history s userUuid) {l : PushStep}
    (hl : l ∈ history) (hlists : w.ListsPush l) :
    (w.pushStep mallow text master l).Holds master
      fun s => ∃ userUuid, ForAsker history s userUuid := by
  cases l with
  | deleted fault iteration event => exact holds_onDeletedEvent fault iteration event w hw
  | externalAuth fault l =>
    refine holds_onExternalAuth fault l.rowOrder l.newUuid l.event ?_ w hw
    intro hname _
    exact ⟨l.event.userUuid, .externalAuth hl hname, rfl, rfl, l.event.userUuid_ne⟩
  | user l =>
    refine World.Holds.userStep hm ?_ hw ?_ hlists
    · rintro s s' hsame ⟨userUuid, h⟩
      exact ⟨userUuid, h.congr hsame⟩
    · rintro token fault json s rfl horigin
      have hasked : AskedBy history s.uuid token.userUuid token.tenantUuid := .post hl
      exact ⟨token.userUuid, horigin.ownerTenant ▸ hasked, horigin.ownerUser,
        horigin.eventsUser, token.userUuid_ne⟩

end Steps

/-- The message goes where this token of the external tokens leads. -/
def PushNotification.SentTo (push : PushNotification) (token : Option String) :
    PushMessage → Prop
  | .fcm call => push.externalTokens.lookup "token" = some token ∧ call.registration = token
  | .apns message => (∃ key ∈ deviceTokenKeys, push.externalTokens.lookup key = some token) ∧
      message.url = push.deviceUrl (token.getD "None")

/-- The message goes to a device that is among the external tokens. -/
def PushNotification.Reaches (push : PushNotification) (message : PushMessage) : Prop :=
  ∃ token, push.SentTo (some token) message

/-- The token is null, and the message goes to no device. -/
def PushNotification.Undirected (push : PushNotification) (message : PushMessage) : Prop :=
  push.SentTo none message

section Reaches
variable {push : PushNotification}

theorem PushNotification.SentTo.reaches {token : Option String} {message : PushMessage}
    (h : push.SentTo token message) : push.Reaches message ∨ push.Undirected message := by
  cases token with
  | none => exact .inr h
  | some token => exact .inl ⟨token, h⟩

theorem lookup_of_apnToken {t : Treatment} {token : Option String}
    (h : push.apnToken t = .ok token) :
    ∃ key ∈ deviceTokenKeys, push.externalTokens.lookup key = some token := by
  have hnotification : push.apnToken .generic = .ok token →
      ∃ key ∈ deviceTokenKeys, push.externalTokens.lookup key = some token := by
    intro hgeneric
    unfold PushNotification.apnToken at hgeneric
    cases hlookup : push.externalTokens.lookup "apns_notification_token" with
    | none => simp [hlookup] at hgeneric
    | some token' =>
      rw [hlookup] at hgeneric
      cases hgeneric
      exact ⟨_, by simp [deviceTokenKeys], hlookup⟩
  cases t with
  | cancelIncomingCall => exact hnotification h
  | generic => exact hnotification h
  | incomingCall =>
    unfold PushNotification.apnToken at h
    cases hvoip : push.token "apns_voip_token" with
    | some token' =>
      rw [hvoip] at h
      cases h
      exact ⟨_, by simp [deviceTokenKeys], (token_eq_some_iff.mp hvoip).1⟩
    | none =>
      cases hlookup : push.externalTokens.lookup "apns_token" with
      | none => simp [hvoip, hlookup] at h
      | some token' =>
        rw [hvoip, hlookup] at h
        cases h
        exact ⟨_, by simp [deviceTokenKeys], hlookup⟩

theorem sentTo_sendViaApn {title body : Option String} {data : NotificationPayload}
    {dataOnly : Bool} {message : ApnMessage}
    (h : push.sendViaApn title body data dataOnly = .ok message) :
    ∃ token, push.SentTo token (.apns message) := by
  obtain ⟨⟨headers, payload, token⟩, hcreate, h⟩ := Except.exists_of_bind_eq_ok h
  obtain ⟨type, -, hcreate⟩ := Except.exists_of_bind_eq_ok hcreate
  obtain ⟨token', htoken, hcreate⟩ := Except.exists_of_bind_eq_ok hcreate
  cases hcreate
  cases h
  obtain ⟨key, hkey, hlookup⟩ := lookup_of_apnToken htoken
  exact ⟨token, ⟨key, hkey, hlookup⟩, rfl⟩

theorem sentTo_sendViaFcm {libs : PushLibraries} {title body : Option String}
    {data : NotificationPayload} {dataOnly : Bool} {call : FcmCall}
    (h : push.sendViaFcm libs title body data dataOnly = .ok call) :
    ∃ token, push.SentTo token (.fcm call) := by
  obtain ⟨⟨credentials, endPoint⟩, -, h⟩ := Except.exists_of_bind_eq_ok h
  obtain ⟨type, -, h⟩ := Except.exists_of_bind_eq_ok h
  obtain ⟨registration, hregistration, h⟩ := Except.exists_of_bind_eq_ok h
  have htoken : push.externalTokens.lookup "token" = some registration := by
    unfold PushNotification.registrationToken at hregistration
    cases hlookup : push.externalTokens.lookup "token" with
    | none => simp [hlookup] at hregistration
    | some token =>
      rw [hlookup] at hregistration
      cases hregistration
      rfl
  cases h
  refine ⟨registration, htoken, ?_⟩
  unfold PushNotification.treatCall
  split
  · rfl
  · rfl
  · split_ifs <;> rfl

theorem reaches_sendNotification {libs : PushLibraries} {type : String}
    {title body : Option String} {extra : Option LoadedDict} {dataOnly : Bool}
    {message : PushMessage}
    (h : push.sendNotification libs type title body extra dataOnly = .ok message) :
    push.Reaches message ∨ push.Undirected message := by
  obtain ⟨data, -, h⟩ := Except.exists_of_bind_eq_ok h
  split_ifs at h
  · obtain ⟨apn, hsend, rfl⟩ := Except.exists_of_map_eq_ok h
    obtain ⟨token, hsent⟩ := sentTo_sendViaApn hsend
    exact hsent.reaches
  · obtain ⟨call, hsend, rfl⟩ := Except.exists_of_map_eq_ok h
    obtain ⟨token, hsent⟩ := sentTo_sendViaFcm hsend
    exact hsent.reaches

end Reaches

section Main
variable (truth : ResponseTruth) (server : AuthServer) (authConfig : List (String × Json))
  (pushConfig : PushConfig)

/-- An exception that nothing here catches. -/
def AuthError.uncaught : AuthError → PushError
  | .httpError _ => .exception "HTTPError"
  | .exception message => .exception message

/-- The `PushNotification` of a user, with what wazo-auth says of her. -/
def fetchPush (userUuid : String) : Except PushError PushNotification :=
  match getExternalData truth server authConfig userUuid with
  | .ok data => .ok ⟨pushConfig, data.externalTokens, data.externalConfig, data.jwt⟩
  | .error e => .error e.uncaught

/-- The external tokens are those that wazo-auth has for the user. -/
def PushNotification.TokensOf (userUuid : String) (push : PushNotification) : Prop :=
  ∃ auth jwt, getAuth server authConfig = .ok (auth, jwt) ∧
    server.externalGet auth "mobile" userUuid = .ok push.externalTokens

variable {truth server authConfig pushConfig} in
theorem tokensOf_getExternalData {userUuid : String} {data : ExternalData}
    (h : getExternalData truth server authConfig userUuid = .ok data) :
    PushNotification.TokensOf server authConfig userUuid
      ⟨pushConfig, data.externalTokens, data.externalConfig, data.jwt⟩ := by
  obtain ⟨⟨auth, jwt⟩, hauth, h⟩ := Except.exists_of_bind_eq_ok h
  obtain ⟨tokens, htokens, h⟩ := Except.exists_of_bind_eq_ok h
  obtain ⟨user, -, h⟩ := Except.exists_of_bind_eq_ok h
  obtain ⟨config, -, h⟩ := Except.exists_of_bind_eq_ok h
  cases h
  exact ⟨auth, jwt, hauth, Answer.value_eq_ok_iff.mp htokens⟩

variable {truth server authConfig pushConfig} in
theorem tokensOf_fetchPush {userUuid : String} {push : PushNotification}
    (h : fetchPush truth server authConfig pushConfig userUuid = .ok push) :
    push.TokensOf server authConfig userUuid := by
  unfold fetchPush at h
  cases hdata : getExternalData truth server authConfig userUuid with
  | error e => simp [hdata] at h
  | ok data =>
    rw [hdata] at h
    cases h
    exact tokensOf_getExternalData hdata

variable (mallow : AdminMallow) (text : Json → Option String) (master : String)
  (serviceManager : String → Option EntryPoint) (config : HookConfig) (libs : PushLibraries)
  (formats : BusNotification.Formats)

/-- Whatever users request and wazo-auth tells, and whichever steps fail: a hook is for the user
who had its subscription created, its message is one of her tenant, or of any if hers is the master
tenant, that is about her or about all
users, and its push, if any, goes to a device that wazo-auth has for her, unless the token that
wazo-auth has is null. -/
theorem pushes_are_private (hm : mallow.toMallow.Documented) (history : List PushStep)
    (hlists : Run.Along (World.pushStep mallow text master) World.ListsPush emptyWorld history)
    (m : Message) (d : BusDelivery) :
    let now := history.foldl (World.pushStep mallow text master) emptyWorld
    ∃ done, d.dispatch serviceManager config now.handler.busConsumer m = .ok done ∧
      ∀ args ∈ d.submitted serviceManager config done.invoked, ∃ userUuid tenantUuid,
        AskedBy history args.subscription.uuid userUuid tenantUuid ∧
        (tenantUuid = master ∨ m.headers.lookup "tenant_uuid" = some (.str tenantUuid)) ∧
        (Meets m.headers ("user_uuid:" ++ userUuid) (.bool true) ∨
          Meets m.headers "user_uuid:*" (.bool true)) ∧
        ∀ name data message,
          PushNotification.runMobile libs (fetchPush truth server authConfig pushConfig) formats
              ⟨args.subscription.eventsUserUuid, name, data⟩ = .ok (some message) →
          ∃ push : PushNotification, push.TokensOf server authConfig userUuid ∧
            (push.Reaches message ∨ push.Undirected message) := by
  intro now
  have hmem : Run.Along (World.pushStep mallow text master) (fun _ l => l ∈ history) emptyWorld
      history := Run.along_label.mpr fun _ h => h
  have hrun : Run.Always (World.pushStep mallow text master)
      (World.Holds master fun s => ∃ userUuid, ForAsker history s userUuid) emptyWorld
      history := by
    refine Run.always_of_along
      (J := World.Holds master fun s => ∃ userUuid, ForAsker history s userUuid) ?_
      (fun _ hσ => hσ) (World.holds_emptyWorld master _) (Run.along_and hmem hlists)
    rintro w l hw ⟨hl, hlist⟩
    exact hw.pushStep hm hl hlist
  obtain ⟨done, hdone, hsubmitted⟩ :=
    (hrun history List.prefix_rfl).submitted serviceManager config m d
  refine ⟨done, hdone, ?_⟩
  intro args hargs
  obtain ⟨s, ⟨userUuid, hs⟩, hdump, haddressed⟩ := hsubmitted args hargs
  have huser : truthy (dump s).eventsUserUuid = some userUuid := by
    change truthy s.eventsUserUuid = _
    rw [hs.eventsUser]
    exact truthy_of_ne fun h => hs.userUuid_ne (Option.some.inj h)
  rw [hdump]
  refine ⟨userUuid, s.ownerTenantUuid, hs.asked, haddressed.tenant, haddressed.user _ huser, ?_⟩
  intro name data message hmessage
  obtain ⟨userUuid', push, type, n, huser', hpush, -, -, hnotify⟩ :=
    exists_notify_of_runMobile hmessage
  cases huser.symm.trans huser'
  exact ⟨push, tokensOf_fetchPush hpush, reaches_sendNotification hnotify⟩

end Main

/-- wazo-auth has the token of a device for one user only. -/
def AuthServer.onlyAlice : AuthServer where
  tokenNew _ _ _ := .ok ⟨"t", none⟩
  externalGet _ _ userUuid :=
    if userUuid = "2f9ac4a6-1f6b-4a1e-8d0c-6f2b1f0c7d11" then
      .ok (Finmap.singleton "apns_notification_token" (some "n"))
    else .refused notFound
  usersGet _ _ := .ok ⟨"6c6d3b6c-58cb-4f5c-9a0e-0f1f0c1f7a03"⟩
  externalGetConfig _ _ _ := .ok emptyExternalConfig

/-- The external auth of a user is added, and she misses a call: the one push is for her device. -/
theorem pushes_are_private_missed_call :
    let history : List PushStep := [.externalAuth none ⟨.ofMobile .added,
      "8b6d3f5e-0d3f-4f0e-9a53-3b8b1d3f5e01", ⟨id, fun _ => .rfl⟩⟩]
    let serviceManager : String → Option EntryPoint := fun _ => some ⟨"mobile.plugin", "Service"⟩
    let d : BusDelivery := ⟨fun _ => "0b9d2d5e-4a62-4bd0-8b2b-7f3f6a2f8c05", fun _ _ => .ok ()⟩
    let now := history.foldl (World.pushStep AdminMallow.plain Json.asString "master") emptyWorld
    let fetch := fetchPush ResponseTruth.documented .onlyAlice [] applePush.config
    ∃ done, d.dispatch serviceManager ⟨10, 2⟩ now.handler.busConsumer missedByUser = .ok done ∧
      ∃ args ∈ d.submitted serviceManager ⟨10, 2⟩ done.invoked, ∃ message,
        PushNotification.runMobile PushLibraries.plain fetch ⟨fun _ => "", ""⟩
            ⟨args.subscription.eventsUserUuid, "user_missed_call", []⟩ = .ok (some message) ∧
          ∃ userUuid tenantUuid, AskedBy history args.subscription.uuid userUuid tenantUuid ∧
            ∃ push : PushNotification, push.TokensOf .onlyAlice [] userUuid ∧
              (push.Reaches message ∨ push.Undirected message) := by
  intro history serviceManager d now fetch
  obtain ⟨done, hdone, hall⟩ := pushes_are_private ResponseTruth.documented .onlyAlice []
    applePush.config AdminMallow.plain Json.asString "master" serviceManager ⟨10, 2⟩
    PushLibraries.plain ⟨fun _ => "", ""⟩ Mallow.documented_plain history ⟨trivial, trivial⟩
    missedByUser d
  have hone : (d.dispatch serviceManager ⟨10, 2⟩ now.handler.busConsumer missedByUser).map
      (fun done => (d.submitted serviceManager ⟨10, 2⟩ done.invoked).map
        (·.subscription.eventsUserUuid)) = .ok [some "2f9ac4a6-1f6b-4a1e-8d0c-6f2b1f0c7d11"] := rfl
  rw [hdone] at hone
  obtain ⟨args, hsubmitted, huser⟩ := List.map_eq_singleton_iff.mp (Except.ok.inj hone)
  have hargs : args ∈ d.submitted serviceManager ⟨10, 2⟩ done.invoked := by simp [hsubmitted]
  have hpushed : ∃ message, PushNotification.runMobile PushLibraries.plain fetch
      ⟨fun _ => "", ""⟩ ⟨args.subscription.eventsUserUuid, "user_missed_call", []⟩ =
        .ok (some message) := by
    rw [huser]
    exact ⟨_, rfl⟩
  obtain ⟨message, hmessage⟩ := hpushed
  obtain ⟨userUuid, tenantUuid, hasked, -, -, hpush⟩ := hall args hargs
  exact ⟨done, hdone, args, hargs, message, hmessage, userUuid, tenantUuid, hasked,
    hpush _ _ _ hmessage⟩

end WazoWebhookd

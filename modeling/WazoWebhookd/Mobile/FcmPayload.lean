import WazoWebhookd.Mobile.PushNotification

/-! The message of FCM v1, as the client of its API builds it of the arguments of its methods. -/
namespace WazoWebhookd

/-- What `data_message` may be: a dictionary, or something else. -/
inductive DataMessage
  | dict (data : NotificationPayload)
  | other (v : Json)

/-- The parameters of `parse_payload`, with their defaults; what is not passed is `none`. -/
structure PayloadArgs where
  registrationToken : Option String := none
  messageBody : Option String := none
  messageTitle : Option String := none
  messageIcon : Option String := none
  sound : Option String := none
  collapseKey : Option String := none
  timeToLive : Json := .null
  restrictedPackageName : Option String := none
  lowPriority : Bool := false
  dryRun : Bool := false
  dataMessage : DataMessage := .other .null
  clickAction : Option String := none
  badge : Json := .null
  color : Option String := none
  tag : Option String := none
  bodyLocKey : Option String := none
  bodyLocArgs : Json := .null
  titleLocKey : Option String := none
  titleLocArgs : Json := .null
  removeNotification : Bool := false
  androidChannelId : Option String := none
  extraNotificationKwargs : List (String × Json) := []
  extraKwargs : List (String × Json) := []

inductive FcmError
  | invalidDataError (message : String)
  deriving DecidableEq

inductive FcmField
  | json (v : Json)
  | data (data : NotificationPayload)
  | android (config : List (String × Json))

/-- What is under `message`. -/
abbrev FcmPayload := List (String × FcmField)

/-- An item of the dictionary, for an argument that is true. -/
def optionalItem (key : String) (value : Option String) : List (String × Json) :=
  ((truthy value).map fun s => (key, Json.str s)).toList

namespace PayloadArgs
variable (args : PayloadArgs)

def ttl : Except FcmError (List (String × Json)) :=
  match args.timeToLive with
  | .null => .ok []
  | .num seconds => .ok [("ttl", .str (toString seconds ++ "s"))]
  | .bool b => .ok [("ttl", .str ((if b then "True" else "False") ++ "s"))]
  | _ => .error (.invalidDataError "Provided time_to_live is not an integer")

def data : Except FcmError FcmPayload :=
  match args.dataMessage with
  | .dict data => .ok (if data.keys = ∅ then [] else [("data", .data data)])
  | .other v =>
    if v.truthy then .error (.invalidDataError "Provided data_message is in the wrong format")
    else .ok []

/-- A text, or the key and the arguments of a localized one. -/
def localized (key : String) (text locKey : Option String) (locArgs : Json) :
    Except FcmError (List (String × Json)) :=
  match truthy text with
  | some text => .ok [(key, .str text)]
  | none =>
    let locKeys := optionalItem (key ++ "_loc_key") locKey
    match locArgs.truthy, locArgs with
    | false, _ => .ok locKeys
    | true, .arr items => .ok (locKeys ++ [(key ++ "_loc_args", .arr items)])
    | true, _ => .error (.invalidDataError (key ++ "_loc_args should be an array"))

def notificationCount : List (String × Json) :=
  match args.badge with
  | .num badge => if 0 ≤ badge then [("notification_count", .num badge)] else []
  | .bool b => [("notification_count", .bool b)]
  | _ => []

end PayloadArgs

/-- `parse_payload`, up to the text of the message. -/
def parsePayload (args : PayloadArgs) : Except FcmError FcmPayload := do
  let ttl ← args.ttl
  let data ← args.data
  let body ← PayloadArgs.localized "body" args.messageBody args.bodyLocKey args.bodyLocArgs
  let title ← PayloadArgs.localized "title" args.messageTitle args.titleLocKey args.titleLocArgs
  let notification := KeyedList.update
    (optionalItem "icon" args.messageIcon ++ body ++ title ++
      optionalItem "channel_id" args.androidChannelId ++
      optionalItem "click_action" args.clickAction ++ args.notificationCount ++
      optionalItem "color" args.color ++ optionalItem "tag" args.tag ++
      optionalItem "sound" args.sound)
    args.extraNotificationKwargs
  let config := [("priority", Json.str (if args.lowPriority then "normal" else "high"))] ++
    optionalItem "collapse_key" args.collapseKey ++ ttl ++
    optionalItem "restricted_package_name" args.restrictedPackageName
  let config := if notification.isEmpty || args.removeNotification then config
    else config ++ [("notification", .obj notification)]
  let token := (optionalItem "token" args.registrationToken).map fun p => (p.1, FcmField.json p.2)
  let dryRun := if args.dryRun then [("dry_run", FcmField.json (.bool true))] else []
  let extra := args.extraKwargs.map fun p => (p.1, FcmField.json p.2)
  pure (KeyedList.setItem "android" (.android config)
    (KeyedList.update (token ++ dryRun ++ data) extra))

namespace FcmCall
variable (call : FcmCall)

def payload : Except FcmError FcmPayload :=
  match call.method with
  | .notifySingleDevice => parsePayload {
      registrationToken := call.registration
      messageBody := call.messageBody
      messageTitle := call.messageTitle
      timeToLive := .num call.timeToLive
      lowPriority := call.lowPriority.getD false
      dataMessage := .dict call.dataMessage
      badge := call.badge.elim .null fun badge => .num badge
      androidChannelId := call.androidChannelId }
  | .singleDeviceDataMessage =>
    if call.registration = none then .error (.invalidDataError "Invalid registration ID")
    else parsePayload {
      registrationToken := call.registration
      timeToLive := .num call.timeToLive
      lowPriority := call.lowPriority.getD false
      dataMessage := .dict call.dataMessage
      removeNotification := true
      androidChannelId := call.androidChannelId }

end FcmCall

section Spec
variable {args : PayloadArgs} {payload : FcmPayload} {data : NotificationPayload}

theorem key_of_mem_optionalItem {key : String} {value : Option String} {p : String × Json}
    (h : p ∈ optionalItem key value) : p.1 = key := by
  obtain ⟨s, -, rfl⟩ := Option.map_eq_some_iff.mp (Option.mem_toList.mp h)
  rfl

theorem data_of_parsePayload (h : parsePayload args = .ok payload)
    (hdata : args.dataMessage = .dict data) (hkeys : data.keys ≠ ∅)
    (hextra : args.extraKwargs = []) : payload.lookup "data" = some (.data data) := by
  unfold parsePayload at h
  obtain ⟨ttl, -, h⟩ := Except.exists_of_bind_eq_ok h
  obtain ⟨field, hfield, h⟩ := Except.exists_of_bind_eq_ok h
  obtain ⟨body, -, h⟩ := Except.exists_of_bind_eq_ok h
  obtain ⟨title, -, h⟩ := Except.exists_of_bind_eq_ok h
  have hdata : field = [("data", .data data)] := by
    unfold PayloadArgs.data at hfield
    rw [hdata] at hfield
    exact (Except.ok.inj hfield).symm.trans (if_neg hkeys)
  have hother : ∀ l : FcmPayload, (∀ p ∈ l, p.1 ≠ "data") →
      (l ++ field).lookup "data" = some (.data data) := by
    intro l hl
    have hnone : l.lookup "data" = none :=
      KeyedList.lookup_eq_none_iff_notMem.mpr fun hmem => by
        obtain ⟨p, hp, heq⟩ := List.mem_map.mp hmem
        exact hl p hp heq
    rw [List.lookup_append, hnone, hdata]
    rfl
  obtain rfl := Except.ok.inj h
  rw [KeyedList.lookup_setItem, if_neg (by decide), hextra]
  refine hother _ fun p hp => ?_
  rcases List.mem_append.mp hp with hp | hp
  · obtain ⟨q, hq, rfl⟩ := List.mem_map.mp hp
    rw [key_of_mem_optionalItem hq]
    decide
  · split_ifs at hp
    · rw [List.mem_singleton.mp hp]
      decide
    · cases hp

theorem data_of_payload {call : FcmCall} (h : call.payload = .ok payload)
    (hkeys : call.dataMessage.keys ≠ ∅) :
    payload.lookup "data" = some (.data call.dataMessage) := by
  unfold FcmCall.payload at h
  split at h
  · exact data_of_parsePayload h rfl hkeys rfl
  · split_ifs at h
    exact data_of_parsePayload h rfl hkeys rfl

theorem exists_localized (key : String) (text locKey : Option String) :
    ∃ items, PayloadArgs.localized key text locKey .null = .ok items := by
  unfold PayloadArgs.localized
  cases truthy text with
  | none => exact ⟨_, rfl⟩
  | some text => exact ⟨_, rfl⟩

theorem exists_parsePayload {seconds : ℤ} (httl : args.timeToLive = .num seconds)
    (hdata : args.dataMessage = .dict data) (hbody : args.bodyLocArgs = .null)
    (htitle : args.titleLocArgs = .null) : ∃ payload, parsePayload args = .ok payload := by
  have hargsttl : args.ttl = .ok [("ttl", .str (toString seconds ++ "s"))] := by
    unfold PayloadArgs.ttl
    rw [httl]
  have hargsdata : args.data = .ok (if data.keys = ∅ then [] else [("data", .data data)]) := by
    unfold PayloadArgs.data
    rw [hdata]
  obtain ⟨body, hbodyitems⟩ := exists_localized "body" args.messageBody args.bodyLocKey
  obtain ⟨title, htitleitems⟩ := exists_localized "title" args.messageTitle args.titleLocKey
  unfold parsePayload
  rw [hargsttl, hargsdata, hbody, htitle, hbodyitems, htitleitems]
  exact ⟨_, rfl⟩

theorem exists_payload {call : FcmCall} (h : call.registration ≠ none) :
    ∃ payload, call.payload = .ok payload := by
  unfold FcmCall.payload
  split
  · exact exists_parsePayload rfl rfl rfl rfl
  · rw [if_neg h]
    exact exists_parsePayload rfl rfl rfl rfl

end Spec

end WazoWebhookd

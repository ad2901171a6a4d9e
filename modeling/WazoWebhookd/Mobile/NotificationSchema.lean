import WazoWebhookd.Subscription.Schema

/-! The notifications that a client of the API asks for, as their schema accepts them. -/
namespace WazoWebhookd

inductive NotificationType
  | messageReceived
  | voicemailReceived
  | incomingCall
  | cancelIncomingCall
  | plugin
  | missedCall
  deriving DecidableEq

def NotificationType.value : NotificationType → String
  | .messageReceived => "messageReceived"
  | .voicemailReceived => "voicemailReceived"
  | .incomingCall => "incomingCall"
  | .cancelIncomingCall => "cancelIncomingCall"
  | .plugin => "plugin"
  | .missedCall => "missedCall"

def reservedNotificationTypes : List NotificationType :=
  [.messageReceived, .voicemailReceived, .incomingCall, .cancelIncomingCall, .missedCall]

/-- The class of the pattern: without regard to case, `[a-z]` has four letters more. -/
def isTypeChar (c : Char) : Bool :=
  c.isAlphanum || c = '_' || c.toNat ∈ [0x130, 0x131, 0x17F, 0x212A]

/-- `^[a-z0-9_]+$`, whose end may be before a last newline. -/
def matchesTypePattern (s : String) : Bool :=
  let chars := s.toList
  let chars := if chars.getLast? = some '\n' then chars.dropLast else chars
  !chars.isEmpty && chars.all isTypeChar

/-- The messages of the validators of `notification_type`. -/
def validateNotificationType (s : String) : List String :=
  (if 1 ≤ s.length ∧ s.length ≤ 100 then [] else ["Length must be between 1 and 100."]) ++
  (if s ∈ reservedNotificationTypes.map (·.value) then
    ["The type \"" ++ s ++ "\" is a reserved type."] else []) ++
  (if matchesTypePattern s then [] else ["String does not match expected pattern."])

def validateLengthEqual (length : ℕ) (s : String) : List String :=
  if s.length = length then [] else ["Length must be " ++ toString length ++ "."]

def validateLengthMax (max : ℕ) (s : String) : List String :=
  if s.length ≤ max then [] else ["Longer than maximum length " ++ toString max ++ "."]

/-- The libraries, with strings that pass some validators. -/
structure NotificationMallow extends Mallow where
  validated : (String → List String) → Json → Except LoadError Json

structure NotificationMallow.Documented (mallow : NotificationMallow) : Prop extends
    mallow.toMallow.Documented where
  validated : ∀ {check raw v}, mallow.validated check raw = .ok v → ∃ s, v = .str s ∧ check s = []

section Schema
variable (mallow : NotificationMallow)

def notificationSchema : Schema where
  unknown := .raise
  fields := [
    { name := "notification_type", dataKey := "notification_type",
      deserialize := fun _ => mallow.validated validateNotificationType, required := true },
    { name := "user_uuid", dataKey := "user_uuid",
      deserialize := fun _ => mallow.validated (validateLengthEqual 36), required := true },
    { name := "title", dataKey := "title",
      deserialize := fun _ => mallow.validated (validateLengthMax 128), required := true },
    { name := "body", dataKey := "body",
      deserialize := fun _ => mallow.validated (validateLengthMax 250), required := true },
    { name := "extra", dataKey := "extra", deserialize := fun _ => mallow.dict }]
  name_nodup := by simp

/-- `notification_schema.load`, with the default of `extra`. -/
def loadNotification (json : Json) : Except LoadError LoadedDict :=
  (mallow.load (notificationSchema mallow) json).map fun d =>
    if "extra" ∈ d then d else d.insert "extra" (.obj [])

end Schema

def dictOfFields (fields : List (String × Json)) : LoadedDict :=
  fields.foldl (fun d p => d.insert p.1 p.2) ∅

structure NotificationDict where
  notificationType : String
  userUuid : String
  title : String
  body : String
  extra : LoadedDict

def NotificationDict.ofDict (d : LoadedDict) : Option NotificationDict := do
  pure {
    notificationType := ← (← d.lookup "notification_type").asString
    userUuid := ← (← d.lookup "user_uuid").asString
    title := ← (← d.lookup "title").asString
    body := ← (← d.lookup "body").asString
    extra := dictOfFields (← (← d.lookup "extra").asFields) }

section Load
variable {mallow : NotificationMallow} {json : Json} {d : LoadedDict}

theorem lookup_validated (hm : mallow.Documented) {loaded : LoadedDict}
    (h : mallow.load (notificationSchema mallow) json = .ok loaded) {f : Field}
    (hf : f ∈ (notificationSchema mallow).loadFields) (hr : f.required)
    {check : String → List String} (hcheck : f.deserialize = fun _ => mallow.validated check) :
    ∃ s, loaded.lookup f.name = some (.str s) ∧ check s = [] := by
  obtain ⟨v, data, raw, hv, hok⟩ := hm.lookup_required h hf hr
  rw [hcheck] at hok
  obtain ⟨s, rfl, hs⟩ := hm.validated hok
  exact ⟨s, hv, hs⟩

/-- What is accepted is a notification whose type passed its validators. -/
theorem exists_notification_of_load (hm : mallow.Documented)
    (h : loadNotification mallow json = .ok d) :
    ∃ n, NotificationDict.ofDict d = some n ∧ validateNotificationType n.notificationType = [] := by
  unfold loadNotification Except.map at h
  split at h
  · cases h
  · rename_i loaded hload
    have hd : d = if "extra" ∈ loaded then loaded else loaded.insert "extra" (.obj []) :=
      (Except.ok.inj h).symm
    have hfields : ∀ i : Fin 5, (notificationSchema mallow).loadFields.get i ∈
        (notificationSchema mallow).loadFields :=
      fun i => List.get_mem (notificationSchema mallow).loadFields i
    obtain ⟨type, htype, hvalid⟩ :
        ∃ s, loaded.lookup "notification_type" = some (.str s) ∧ validateNotificationType s = [] :=
      lookup_validated hm hload (hfields 0) rfl rfl
    obtain ⟨userUuid, huser, -⟩ :
        ∃ s, loaded.lookup "user_uuid" = some (.str s) ∧ validateLengthEqual 36 s = [] :=
      lookup_validated hm hload (hfields 1) rfl rfl
    obtain ⟨title, htitle, -⟩ :
        ∃ s, loaded.lookup "title" = some (.str s) ∧ validateLengthMax 128 s = [] :=
      lookup_validated hm hload (hfields 2) rfl rfl
    obtain ⟨body, hbody, -⟩ :
        ∃ s, loaded.lookup "body" = some (.str s) ∧ validateLengthMax 250 s = [] :=
      lookup_validated hm hload (hfields 3) rfl rfl
    have hextra : ∃ extra, d.lookup "extra" = some (.obj extra) := by
      rw [hd]
      split_ifs with hmem
      · obtain ⟨v, hv⟩ := Finmap.mem_iff.mp hmem
        obtain ⟨_, _, -, -, hok⟩ := hm.deserializes hload _ (hfields 4) v hv
        obtain ⟨extra, rfl⟩ := hm.dict hok
        exact ⟨extra, hv⟩
      · exact ⟨[], Finmap.lookup_insert loaded⟩
    have hother : ∀ key ≠ "extra", d.lookup key = loaded.lookup key := by
      intro key hkey
      rw [hd]
      split_ifs
      · rfl
      · exact Finmap.lookup_insert_of_ne loaded hkey
    obtain ⟨extra, hextra⟩ := hextra
    refine ⟨⟨type, userUuid, title, body, dictOfFields extra⟩, ?_, hvalid⟩
    unfold NotificationDict.ofDict
    rw [hother _ (by decide), hother _ (by decide), hother _ (by decide), hother _ (by decide),
      htype, huser, htitle, hbody, hextra]
    rfl

theorem not_reserved_of_validate {s : String} (h : validateNotificationType s = []) :
    s ∉ reservedNotificationTypes.map (·.value) := by
  intro hmem
  have hreserved := (List.append_eq_nil_iff.mp (List.append_eq_nil_iff.mp h).1).2
  rw [if_pos hmem] at hreserved
  cases hreserved

example : validateNotificationType "messageReceived" =
    ["The type \"messageReceived\" is a reserved type."] := by decide

end Load

/-- Libraries that report the messages of the validators. -/
def NotificationMallow.plain : NotificationMallow where
  toMallow := Mallow.plain
  validated check raw := match raw with
    | .str s =>
      if check s = [] then .ok (.str s)
      else .error (.validationError (.arr ((check s).map .str)))
    | _ => .error (.validationError .null)

theorem NotificationMallow.documented_plain : NotificationMallow.plain.Documented where
  toDocumented := Mallow.documented_plain
  validated := by
    intro check raw v h
    cases raw with
    | str s =>
      simp only [NotificationMallow.plain] at h
      split_ifs at h with hcheck
      cases h
      exact ⟨s, rfl, hcheck⟩
    | _ => cases h

end WazoWebhookd

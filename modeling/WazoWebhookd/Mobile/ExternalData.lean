import WazoWebhookd.Mobile.PushNotification

/-! What the mobile service asks of wazo-auth before a notification is sent, and what becomes of
the errors that wazo-auth answers. -/
namespace WazoWebhookd

/-- A `requests.Response`, as far as the handlers look at it. -/
structure HTTPResponse where
  statusCode : ℕ

/-- A `requests.HTTPError`. -/
structure HTTPError where
  response : Option HTTPResponse

inductive AuthError
  | httpError (e : HTTPError)
  | exception (message : String)

/-- An error that wazo-auth answers. -/
structure ErrorAnswer where
  statusCode : ℕ
  le_statusCode : 400 ≤ statusCode
  statusCode_lt : statusCode < 600

inductive Answer (α : Type)
  | ok (value : α)
  | refused (answer : ErrorAnswer)
  | failed (message : String)

def ErrorAnswer.raised (answer : ErrorAnswer) : HTTPError := ⟨some ⟨answer.statusCode⟩⟩

def Answer.value {α : Type} : Answer α → Except AuthError α
  | .ok value => .ok value
  | .refused answer => .error (.httpError answer.raised)
  | .failed message => .error (.exception message)

structure TokenDict where
  token : String
  metadata : Option StringDict

structure UserDict where
  tenantUuid : String

/-- The client of wazo-auth: its settings, and the token it sends. -/
structure AuthClient where
  settings : List (String × Json)
  token : Option String

structure AuthServer where
  tokenNew : AuthClient → String → ℕ → Answer TokenDict
  externalGet : AuthClient → String → String → Answer StringDict
  usersGet : AuthClient → String → Answer UserDict
  externalGetConfig : AuthClient → String → String → Answer ExternalConfigDict

/-- The truth value of a response, which `requests` documents as its status being below 400. -/
structure ResponseTruth where
  isTrue : HTTPResponse → Bool
  isTrue_iff : ∀ response, isTrue response ↔ response.statusCode < 400

/-- `e.response and test(e.response.status_code)`. -/
def ResponseTruth.andStatus (truth : ResponseTruth) (e : HTTPError) (test : ℕ → Bool) : Bool :=
  match e.response with
  | none => false
  | some response => truth.isTrue response && test response.statusCode

def emptyExternalConfig : ExternalConfigDict where
  fcmApiKey := some ""
  fcmServiceAccountInfo := some ""
  iosApnCertificate := some ""
  iosApnPrivate := some ""
  useSandbox := false

section Calls
variable (truth : ResponseTruth) (server : AuthServer) (authConfig : List (String × Json))

def newClient : AuthClient where
  settings := KeyedList.setItem "verify_certificate" (.bool false) authConfig
  token := none

/-- The client with its token, and without its credentials. -/
def AuthClient.authenticated (client : AuthClient) (token : String) : AuthClient where
  settings := KeyedList.setItem "password" .null (KeyedList.setItem "username" .null
    client.settings)
  token := some token

def getAuth : Except AuthError (AuthClient × Option String) := do
  let token ← (server.tokenNew (newClient authConfig) "wazo_user" 3600).value
  let jwt := ((token.metadata.getD ∅).lookup "jwt").getD (some "")
  pure ((newClient authConfig).authenticated token.token, jwt)

/-- The `try` of `get_external_data`. -/
def externalConfigOf (auth : AuthClient) (tenantUuid : String) :
    Except AuthError ExternalConfigDict :=
  match (server.externalGetConfig auth "mobile" tenantUuid).value with
  | .error (.httpError e) =>
    if truth.andStatus e (· ≠ 404) then .error (.httpError e) else .ok emptyExternalConfig
  | result => result

structure ExternalData where
  externalTokens : StringDict
  externalConfig : ExternalConfigDict
  jwt : Option String

def getExternalData (userUuid : String) : Except AuthError ExternalData := do
  let (auth, jwt) ← getAuth server authConfig
  let externalTokens ← (server.externalGet auth "mobile" userUuid).value
  let user ← (server.usersGet auth userUuid).value
  let externalConfig ← externalConfigOf truth server auth user.tenantUuid
  pure ⟨externalTokens, externalConfig, jwt⟩

inductive TaskError
  | auth (e : AuthError)
  | push (e : PushError)

/-- How the task `send_notification` ends, and the messages it handed over. -/
structure NotificationRun where
  result : Except TaskError Bool
  sent : List PushMessage

def sendNotification (pushConfig : PushConfig) (libs : PushLibraries)
    (deliver : PushMessage → Except PushError Bool) (notification : NotificationDict) :
    NotificationRun :=
  match getExternalData truth server authConfig notification.userUuid with
  | .error (.httpError e) =>
    if truth.andStatus e (· = 404) then ⟨.ok false, []⟩ else ⟨.error (.auth (.httpError e)), []⟩
  | .error e => ⟨.error (.auth e), []⟩
  | .ok data =>
    let push : PushNotification :=
      ⟨pushConfig, data.externalTokens, data.externalConfig, data.jwt⟩
    match push.sendNotificationTask libs notification with
    | .error e => ⟨.error (.push e), []⟩
    | .ok message => ⟨(deliver message).mapError .push, [message]⟩

end Calls

/-- The status says that the resource does not exist. -/
def HTTPError.Missing (e : HTTPError) : Prop := e.response.map (·.statusCode) = some 404

instance (e : HTTPError) : Decidable e.Missing := inferInstanceAs (Decidable (_ = _))

/-- wazo-auth answers a request before the one for the config with that error. -/
def AuthServer.RefusesBefore (server : AuthServer) (authConfig : List (String × Json))
    (userUuid : String) (answer : ErrorAnswer) : Prop :=
  server.tokenNew (newClient authConfig) "wazo_user" 3600 = .refused answer ∨
    ∃ auth jwt, getAuth server authConfig = .ok (auth, jwt) ∧
      (server.externalGet auth "mobile" userUuid = .refused answer ∨
        ∃ tokens, server.externalGet auth "mobile" userUuid = .ok tokens ∧
          server.usersGet auth userUuid = .refused answer)

/-- What has to come of the answer to the request for the config. -/
def ConfigHandled (result : Except AuthError ExternalData) (tokens : StringDict)
    (jwt : Option String) : Answer ExternalConfigDict → Prop
  | .ok config => result = .ok ⟨tokens, config, jwt⟩
  | .refused answer =>
    result = if answer.statusCode = 404 then .ok ⟨tokens, emptyExternalConfig, jwt⟩
      else .error (.httpError answer.raised)
  | .failed message => result = .error (.exception message)

/-- What the task has to do with an error of `get_external_data`. -/
def ErrorHandled (run : NotificationRun) (e : HTTPError) : Prop :=
  run = if e.Missing then ⟨.ok false, []⟩ else ⟨.error (.auth (.httpError e)), []⟩

/-- The requests before the one for the config are answered. -/
structure Answered (server : AuthServer) (authConfig : List (String × Json)) (userUuid : String)
    (auth : AuthClient) (jwt : Option String) (tokens : StringDict) (user : UserDict) : Prop where
  auth_eq : getAuth server authConfig = .ok (auth, jwt)
  tokens_eq : server.externalGet auth "mobile" userUuid = .ok tokens
  user_eq : server.usersGet auth userUuid = .ok user

/-- The answer is an error whose status is one of those. -/
def Answer.Refuses {α : Type} (status : ℕ → Prop) (answer : Answer α) : Prop :=
  ∃ e, answer = .refused e ∧ status e.statusCode

section Spec
variable (truth : ResponseTruth) (server : AuthServer) (authConfig : List (String × Json))
  (pushConfig : PushConfig) (libs : PushLibraries)
  (deliver : PushMessage → Except PushError Bool) (notification : NotificationDict)

/-- Both functions tell a missing resource from the other errors. -/
structure ToldApart : Prop where
  config : ∀ auth jwt tokens user,
    Answered server authConfig notification.userUuid auth jwt tokens user →
    ConfigHandled (getExternalData truth server authConfig notification.userUuid) tokens jwt
      (server.externalGetConfig auth "mobile" user.tenantUuid)
  task : ∀ e, getExternalData truth server authConfig notification.userUuid =
      .error (.httpError e) →
    ErrorHandled (sendNotification truth server authConfig pushConfig libs deliver notification) e

/-- No error of wazo-auth is one that a handler takes for another. -/
structure Unmistakable : Prop where
  token : ¬ (server.tokenNew (newClient authConfig) "wazo_user" 3600).Refuses (· = 404)
  external : ∀ auth jwt, getAuth server authConfig = .ok (auth, jwt) →
    ¬ (server.externalGet auth "mobile" notification.userUuid).Refuses (· = 404)
  user : ∀ auth jwt tokens, getAuth server authConfig = .ok (auth, jwt) →
    server.externalGet auth "mobile" notification.userUuid = .ok tokens →
    ¬ (server.usersGet auth notification.userUuid).Refuses (· = 404)
  config : ∀ auth jwt tokens user,
    Answered server authConfig notification.userUuid auth jwt tokens user →
    ¬ (server.externalGetConfig auth "mobile" user.tenantUuid).Refuses (· ≠ 404)

end Spec

namespace Answer
variable {α : Type} {answer : Answer α}

theorem value_eq_ok_iff {value : α} : answer.value = .ok value ↔ answer = .ok value := by
  cases answer with
  | ok value' => simp [Answer.value]
  | refused error => simp [Answer.value]
  | failed message => simp [Answer.value]

theorem value_eq_httpError_iff {e : HTTPError} :
    answer.value = .error (.httpError e) ↔ ∃ error, answer = .refused error ∧ e = error.raised := by
  cases answer with
  | ok value => simp [Answer.value]
  | refused error => simp [Answer.value, eq_comm]
  | failed message => simp [Answer.value]

end Answer

theorem getAuth_eq_httpError_iff {server : AuthServer} {authConfig : List (String × Json)}
    {e : HTTPError} :
    getAuth server authConfig = .error (.httpError e) ↔
      ∃ answer, server.tokenNew (newClient authConfig) "wazo_user" 3600 = .refused answer ∧
        e = answer.raised := by
  unfold getAuth
  rw [Except.bind_eq_error_iff, Answer.value_eq_httpError_iff]
  simp [pure, Except.pure]

namespace ResponseTruth
variable (truth : ResponseTruth) {server : AuthServer} {authConfig : List (String × Json)}
  {userUuid : String} {auth : AuthClient} {jwt : Option String} {tokens : StringDict}
  {user : UserDict}

/-- The response of an error is false, so its status is not looked at. -/
@[simp] theorem andStatus_raised (answer : ErrorAnswer) (test : ℕ → Bool) :
    truth.andStatus answer.raised test = false := by
  have hfalse : truth.isTrue ⟨answer.statusCode⟩ = false := by
    rw [Bool.eq_false_iff, ne_eq, truth.isTrue_iff]
    have := answer.le_statusCode
    exact not_lt.mpr this
  simp [andStatus, ErrorAnswer.raised, hfalse]

theorem externalConfigOf_refused {answer : ErrorAnswer} {tenantUuid : String}
    (h : server.externalGetConfig auth "mobile" tenantUuid = .refused answer) :
    externalConfigOf truth server auth tenantUuid = .ok emptyExternalConfig := by
  simp [externalConfigOf, h, Answer.value]

theorem externalConfigOf_ne {e : HTTPError} {tenantUuid : String} :
    externalConfigOf truth server auth tenantUuid ≠ .error (.httpError e) := by
  cases hconfig : server.externalGetConfig auth "mobile" tenantUuid with
  | ok config => simp [externalConfigOf, hconfig, Answer.value]
  | failed message => simp [externalConfigOf, hconfig, Answer.value]
  | refused answer => simp [truth.externalConfigOf_refused hconfig]

theorem getExternalData_of_answered
    (h : Answered server authConfig userUuid auth jwt tokens user) :
    getExternalData truth server authConfig userUuid =
      (externalConfigOf truth server auth user.tenantUuid).map (⟨tokens, ·, jwt⟩) := by
  unfold getExternalData
  rw [h.auth_eq]
  dsimp only [Bind.bind, Except.bind]
  rw [h.tokens_eq]
  dsimp only [Answer.value]
  rw [h.user_eq]
  rfl

theorem getExternalData_eq_httpError_iff {e : HTTPError} :
    getExternalData truth server authConfig userUuid = .error (.httpError e) ↔
      ∃ answer, e = answer.raised ∧ server.RefusesBefore authConfig userUuid answer := by
  unfold getExternalData AuthServer.RefusesBefore
  simp only [Except.bind_eq_error_iff, Answer.value_eq_ok_iff, Answer.value_eq_httpError_iff,
    getAuth_eq_httpError_iff, truth.externalConfigOf_ne]
  constructor
  · rintro (⟨answer, hnew, rfl⟩ | ⟨⟨auth, jwt⟩, hauth, hrest⟩)
    · exact ⟨answer, rfl, .inl hnew⟩
    · rcases hrest with ⟨answer, htokens, rfl⟩ | ⟨tokens, htokens, hrest⟩
      · exact ⟨answer, rfl, .inr ⟨auth, jwt, hauth, .inl htokens⟩⟩
      · rcases hrest with ⟨answer, huser, rfl⟩ | ⟨user, -, hfalse | ⟨config, -, hpure⟩⟩
        · exact ⟨answer, rfl, .inr ⟨auth, jwt, hauth, .inr ⟨tokens, htokens, huser⟩⟩⟩
        · exact hfalse.elim
        · cases hpure
  · rintro ⟨answer, rfl, hnew | ⟨auth, jwt, hauth, htokens | ⟨tokens, htokens, huser⟩⟩⟩
    · exact .inl ⟨answer, hnew, rfl⟩
    · exact .inr ⟨(auth, jwt), hauth, .inl ⟨answer, htokens, rfl⟩⟩
    · exact .inr ⟨(auth, jwt), hauth, .inr ⟨tokens, htokens, .inl ⟨answer, huser, rfl⟩⟩⟩

/-- The task raises every HTTP error again, the missing ones too. -/
theorem sendNotification_of_raised {answer : ErrorAnswer} {pushConfig : PushConfig}
    {libs : PushLibraries} {deliver : PushMessage → Except PushError Bool}
    {notification : NotificationDict}
    (h : getExternalData truth server authConfig notification.userUuid =
      .error (.httpError answer.raised)) :
    sendNotification truth server authConfig pushConfig libs deliver notification =
      ⟨.error (.auth (.httpError answer.raised)), []⟩ := by
  simp [sendNotification, h]

theorem errorHandled_iff {answer : ErrorAnswer} :
    ErrorHandled ⟨.error (.auth (.httpError answer.raised)), []⟩ answer.raised ↔
      answer.statusCode ≠ 404 := by
  have hmissing : answer.raised.Missing ↔ answer.statusCode = 404 := by
    simp [HTTPError.Missing, ErrorAnswer.raised]
  unfold ErrorHandled
  by_cases h : answer.statusCode = 404
  · simp [if_pos (hmissing.mpr h), h]
  · simp [if_neg (mt hmissing.mp h), h]

theorem configHandled_iff (h : Answered server authConfig userUuid auth jwt tokens user) :
    ConfigHandled (getExternalData truth server authConfig userUuid) tokens jwt
        (server.externalGetConfig auth "mobile" user.tenantUuid) ↔
      ¬ (server.externalGetConfig auth "mobile" user.tenantUuid).Refuses (· ≠ 404) := by
  rw [truth.getExternalData_of_answered h]
  cases hconfig : server.externalGetConfig auth "mobile" user.tenantUuid with
  | ok config => simp [externalConfigOf, hconfig, Answer.value, ConfigHandled, Answer.Refuses]; rfl
  | failed message =>
    simp [externalConfigOf, hconfig, Answer.value, ConfigHandled, Answer.Refuses]; rfl
  | refused answer =>
    rw [truth.externalConfigOf_refused hconfig]
    by_cases h404 : answer.statusCode = 404
    · simp [ConfigHandled, Answer.Refuses, h404, Except.map]
    · simp [ConfigHandled, Answer.Refuses, h404, Except.map]

end ResponseTruth

/-- The code keeps the promise when no error of wazo-auth is one that it takes for another. -/
theorem toldApart_iff (truth : ResponseTruth) (server : AuthServer)
    (authConfig : List (String × Json)) (pushConfig : PushConfig) (libs : PushLibraries)
    (deliver : PushMessage → Except PushError Bool) (notification : NotificationDict) :
    ToldApart truth server authConfig pushConfig libs deliver notification ↔
      Unmistakable server authConfig notification := by
  constructor
  · intro h
    have hraised : ∀ answer, server.RefusesBefore authConfig notification.userUuid answer →
        answer.statusCode ≠ 404 := by
      intro answer hbefore
      have hget := truth.getExternalData_eq_httpError_iff.mpr ⟨answer, rfl, hbefore⟩
      have hhandled := h.task _ hget
      rw [truth.sendNotification_of_raised hget] at hhandled
      exact ResponseTruth.errorHandled_iff.mp hhandled
    constructor
    · rintro ⟨answer, hnew, h404⟩
      exact hraised answer (.inl hnew) h404
    · rintro auth jwt hauth ⟨answer, htokens, h404⟩
      exact hraised answer (.inr ⟨auth, jwt, hauth, .inl htokens⟩) h404
    · rintro auth jwt tokens hauth htokens ⟨answer, huser, h404⟩
      exact hraised answer (.inr ⟨auth, jwt, hauth, .inr ⟨tokens, htokens, huser⟩⟩) h404
    · intro auth jwt tokens user hanswered
      exact (truth.configHandled_iff hanswered).mp (h.config _ _ _ _ hanswered)
  · intro h
    constructor
    · intro auth jwt tokens user hanswered
      exact (truth.configHandled_iff hanswered).mpr (h.config _ _ _ _ hanswered)
    · intro e hget
      obtain ⟨answer, rfl, hbefore⟩ := truth.getExternalData_eq_httpError_iff.mp hget
      rw [truth.sendNotification_of_raised hget, ResponseTruth.errorHandled_iff]
      intro h404
      rcases hbefore with hnew | ⟨auth, jwt, hauth, htokens | ⟨tokens, htokens, huser⟩⟩
      · exact h.token ⟨answer, hnew, h404⟩
      · exact h.external auth jwt hauth ⟨answer, htokens, h404⟩
      · exact h.user auth jwt tokens hauth htokens ⟨answer, huser, h404⟩

def ResponseTruth.documented : ResponseTruth where
  isTrue response := response.statusCode < 400
  isTrue_iff response := by simp

def AuthServer.serving (external : Answer StringDict) (config : Answer ExternalConfigDict) :
    AuthServer where
  tokenNew _ _ _ := .ok ⟨"t", none⟩
  externalGet _ _ _ := external
  usersGet _ _ := .ok ⟨"00000000-0000-0000-0000-000000000010"⟩
  externalGetConfig _ _ _ := config

def unavailable : ErrorAnswer := ⟨503, by decide, by decide⟩

def notFound : ErrorAnswer := ⟨404, by decide, by decide⟩

def goodNews : NotificationDict where
  notificationType := "news"
  userUuid := "00000000-0000-0000-0000-000000000001"
  title := "News"
  body := "All is well"
  extra := ∅

/-- An outage is taken for a tenant without a config, and the task fails for a user without a
mobile. -/
theorem outage_for_missing :
    ¬ ToldApart ResponseTruth.documented (.serving (.ok ∅) (.refused unavailable)) []
        applePush.config PushLibraries.plain (fun _ => .ok true) goodNews ∧
      getExternalData ResponseTruth.documented (.serving (.ok ∅) (.refused unavailable)) []
        goodNews.userUuid = .ok ⟨∅, emptyExternalConfig, some ""⟩ ∧
      ¬ ToldApart ResponseTruth.documented
        (.serving (.refused notFound) (.ok emptyExternalConfig)) []
        applePush.config PushLibraries.plain (fun _ => .ok true) goodNews ∧
      (sendNotification ResponseTruth.documented
        (.serving (.refused notFound) (.ok emptyExternalConfig)) []
        applePush.config PushLibraries.plain (fun _ => .ok true) goodNews).result =
          .error (.auth (.httpError notFound.raised)) := by
  have hempty : getExternalData ResponseTruth.documented
      (.serving (.ok ∅) (.refused unavailable)) [] goodNews.userUuid =
        .ok ⟨∅, emptyExternalConfig, some ""⟩ := rfl
  have hraised : sendNotification ResponseTruth.documented
      (.serving (.refused notFound) (.ok emptyExternalConfig)) [] applePush.config
      PushLibraries.plain (fun _ => .ok true) goodNews =
        ⟨.error (.auth (.httpError notFound.raised)), []⟩ := rfl
  refine ⟨fun h => ?_, hempty, fun h => ?_, by rw [hraised]⟩
  · have hhandled := h.config _ (some "") ∅ _ ⟨rfl, rfl, rfl⟩
    rw [hempty] at hhandled
    cases hhandled
  · have hhandled := h.task notFound.raised rfl
    rw [hraised] at hhandled
    cases hhandled

end WazoWebhookd

import WazoWebhookd.Mobile.PrivatePushes

/-! The endpoint that sends notifications for the clients of the API: whom they can reach. -/
namespace WazoWebhookd

structure NotificationUser where
  enabled : Json
  tenantUuid : String

inductive PostError
  | invalid (e : LoadError)
  | apiException (statusCode : ℕ) (message id : String)
  | raised (message : String)

/-- A request, with what the libraries make of its tenant, what wazo-auth answers of users, and
what comes of the publication of the task. -/
structure NotificationRequest where
  json : Json
  tenant : Except PostError String
  usersGet : String → Answer NotificationUser
  published : Except String Unit

namespace NotificationResource

def invalidUserUuid : PostError :=
  .apiException 400 "User UUID is invalid or unauthorized" "invalid-user-uuid"

def verifyUserUuid (request : NotificationRequest) (userUuid : String) :
    Except PostError Unit := do
  let tenantUuid ← request.tenant
  match request.usersGet userUuid with
  | .failed message => throw (.raised message)
  | .refused _ => throw invalidUserUuid
  | .ok user =>
    match user.enabled with
    | .bool true => if user.tenantUuid = tenantUuid then pure () else throw invalidUserUuid
    | _ => throw invalidUserUuid

/-- `post`, which gives the notification of the task where it answers 204. -/
def post (mallow : NotificationMallow) (request : NotificationRequest) :
    Except PostError NotificationDict := do
  let d ← (loadNotification mallow request.json).mapError .invalid
  match NotificationDict.ofDict d with
  | none => throw (.raised "KeyError")
  | some notification => do
    verifyUserUuid request notification.userUuid
    request.published.mapError .raised
    pure notification

end NotificationResource

/-- The tasks that wait for a worker, and those that were run. -/
structure NotificationApi where
  queue : List NotificationDict
  runs : List (NotificationDict × NotificationRun)

inductive NotificationStep
  | post (request : NotificationRequest)
  | work (i : ℕ) (server : AuthServer) (deliver : PushMessage → Except PushError Bool)

section Api
variable (mallow : NotificationMallow) (truth : ResponseTruth) (authConfig : List (String × Json))
  (pushConfig : PushConfig) (libs : PushLibraries)

def NotificationApi.step (api : NotificationApi) : NotificationStep → NotificationApi
  | .post request =>
    match NotificationResource.post mallow request with
    | .error _ => api
    | .ok notification => { api with queue := api.queue ++ [notification] }
  | .work i server deliver =>
    match api.queue[i]? with
    | none => api
    | some notification =>
      ⟨api.queue.eraseIdx i, api.runs ++ [(notification,
        sendNotification truth server authConfig pushConfig libs deliver notification)]⟩

/-- The notification of a step that is answered with 204. -/
def NotificationStep.accepted : NotificationStep → Option NotificationDict
  | .post request => (NotificationResource.post mallow request).toOption
  | .work .. => none

variable {mallow truth authConfig pushConfig libs} {request : NotificationRequest}

section Steps
variable (mallow truth authConfig pushConfig libs)

end Steps

end Api

end WazoWebhookd

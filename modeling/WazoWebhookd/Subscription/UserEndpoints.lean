import Mathlib.Logic.Function.Basic
import WazoWebhookd.Subscription.ServiceCalls

/-! The endpoints under `/users/me/subscriptions`. -/
namespace WazoWebhookd
open Failing SubscriptionService

/-- The token of a request: what the authentication server says of its bearer. -/
structure Token where
  tenantUuid : String
  userUuid : String
  xivoUuid : String
  userUuid_ne : userUuid ≠ ""

inductive RestError
  | load (e : LoadError)
  | typeError
  | service (e : ServiceError)

inductive Response
  | items (items : List SubscriptionDict) (total : ℕ)
  | item (subscription : SubscriptionDict)
  | noContent

abbrev RestM := Failing World RestError

section Resources
variable (mallow : Mallow) (text : Json → Option String) (masterTenantUuid : String)
  (fault : Option Fault) (token : Token)

def keywords (subscription : LoadedDict) : RestM SchemaKwargs :=
  ofExcept (match SchemaKwargs.ofDict text subscription with
    | some kwargs => .ok kwargs
    | none => .error .typeError)

namespace UserSubscriptionsResource

def get (args : List (String × String)) : RestM Response := do
  let params ← raising .load (ofExcept (loadListParams mallow args))
  let subscriptions ← raising .service
    (SubscriptionService.list fault [token.tenantUuid] (some token.userUuid) none
      params.searchMetadata)
  pure (.items (subscriptions.map dump) subscriptions.length)

def owned (subscription : LoadedDict) : LoadedDict :=
  (((subscription.insert "owner_tenant_uuid" (.str token.tenantUuid)).insert
    "events_user_uuid" (.str token.userUuid)).insert
    "owner_user_uuid" (.str token.userUuid)).insert
    "events_wazo_uuid" (.str token.xivoUuid)

def post (uuid : String) (json : Json) : RestM Response := do
  let subscription ← raising .load (ofExcept (mallow.load (userSubscriptionSchema mallow) json))
  let kwargs ← keywords text (owned token subscription)
  let s ← raising .service (create masterTenantUuid fault uuid kwargs)
  pure (.item (dump s))

end UserSubscriptionsResource

namespace UserSubscriptionResource

def get (subscriptionUuid : String) : RestM Response := do
  let s ← raising .service
    (SubscriptionService.get fault subscriptionUuid [token.tenantUuid] (some token.userUuid))
  pure (.item (dump s))

def put (subscriptionUuid : String) (json : Json) (order : List String) : RestM Response := do
  let subscription ← raising .load (ofExcept (mallow.load (userSubscriptionSchema mallow) json))
  let kwargs ← keywords text subscription
  let s ← raising .service (update masterTenantUuid fault subscriptionUuid kwargs order
    [token.tenantUuid] (some token.userUuid))
  pure (.item (dump s))

def delete (subscriptionUuid : String) : RestM Response := do
  raising .service (SubscriptionService.delete masterTenantUuid fault subscriptionUuid
    [token.tenantUuid] (some token.userUuid))
  pure .noContent

end UserSubscriptionResource

inductive UserRequest
  | list (args : List (String × String))
  | post (uuid : String) (json : Json)
  | get (subscriptionUuid : String)
  | put (subscriptionUuid : String) (json : Json) (order : List String)
  | delete (subscriptionUuid : String)

/-- A request is served by the method of its resource. -/
def UserRequest.serve : UserRequest → RestM Response
  | .list args => UserSubscriptionsResource.get mallow fault token args
  | .post uuid json =>
    UserSubscriptionsResource.post mallow text masterTenantUuid fault token uuid json
  | .get uuid => UserSubscriptionResource.get fault token uuid
  | .put uuid json order =>
    UserSubscriptionResource.put mallow text masterTenantUuid fault token uuid json order
  | .delete uuid => UserSubscriptionResource.delete masterTenantUuid fault token uuid

end Resources

theorem exec_keywords {text : Json → Option String} {d : LoadedDict} {k : SchemaKwargs}
    {w : World} (h : SchemaKwargs.ofDict text d = some k) :
    exec (keywords text d) w = (.ok k, w) := by
  unfold keywords
  rw [h, exec_ofExcept]

theorem reads_keywords (text : Json → Option String) (d : LoadedDict) : Reads (keywords text d) :=
  reads_ofExcept _

theorem ofDict_of_exec_keywords {text : Json → Option String} {d : LoadedDict} {k : SchemaKwargs}
    {w w' : World} (h : exec (keywords text d) w = (.ok k, w')) :
    SchemaKwargs.ofDict text d = some k := by
  unfold keywords at h
  rw [exec_ofExcept] at h
  cases hd : SchemaKwargs.ofDict text d with
  | none =>
    rw [hd] at h
    cases h
  | some k' =>
    rw [hd] at h
    cases h
    rfl

theorem exec_keywords_none {text : Json → Option String} {d : LoadedDict} {w : World}
    (h : SchemaKwargs.ofDict text d = none) :
    exec (keywords text d) w = (.error .typeError, w) := by
  unfold keywords
  rw [h, exec_ofExcept]

end WazoWebhookd

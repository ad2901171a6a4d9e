import WazoWebhookd.Subscription.AdminSchema
import WazoWebhookd.Subscription.UserEndpoints

/-! The endpoints of the administrators, and those under `/users/me` for every token. -/
namespace WazoWebhookd
open Failing SubscriptionService

/-- The tenant header or the token is refused. -/
inductive AccessError
  | unauthorized

/-- What the libraries make of the token and of the tenant header of a request: the tenant of
`Tenant.autodetect`, and the tenants visible from one. -/
structure Access where
  autodetect : Except AccessError String
  tokenVisibleTenants : String → Except AccessError (List String)

inductive AdminError
  | access (e : AccessError)
  | rest (e : RestError)

abbrev AdminM := Failing World AdminError

def Access.visibleTenants (access : Access) (recurse : Bool) :
    Except AccessError (List String) := do
  let tenantUuid ← access.autodetect
  if recurse then access.tokenVisibleTenants tenantUuid else pure [tenantUuid]

section Resources
variable (mallow : AdminMallow) (text : Json → Option String) (masterTenantUuid : String)
  (fault : Option Fault) (access : Access)

/-- The body of a `post` or a `put`, with the tenant of the request in it. -/
def adminBody (json : Json) : AdminM LoadedDict := do
  let subscription ← raising (.rest ∘ .load) (ofExcept (loadSubscription mallow json))
  let tenantUuid ← raising .access (ofExcept access.autodetect)
  pure (subscription.insert "owner_tenant_uuid" (.str tenantUuid))

namespace SubscriptionsResource

def get (args : List (String × String)) : AdminM Response := do
  let params ← raising (.rest ∘ .load) (ofExcept (loadListParams mallow.toMallow args))
  let tenantUuids ← raising .access (ofExcept (access.visibleTenants params.recurse))
  let subscriptions ← raising (.rest ∘ .service)
    (SubscriptionService.list fault tenantUuids none none params.searchMetadata)
  pure (.items (subscriptions.map dump) subscriptions.length)

def post (uuid : String) (json : Json) : AdminM Response := do
  let subscription ← adminBody mallow access json
  let kwargs ← raising .rest (keywords text subscription)
  let s ← raising (.rest ∘ .service) (create masterTenantUuid fault uuid kwargs)
  pure (.item (dump s))

end SubscriptionsResource

namespace SubscriptionResource

def get (subscriptionUuid : String) : AdminM Response := do
  let tenantUuids ← raising .access (ofExcept (access.visibleTenants true))
  let s ← raising (.rest ∘ .service)
    (SubscriptionService.get fault subscriptionUuid tenantUuids none)
  pure (.item (dump s))

def put (subscriptionUuid : String) (json : Json) (order : List String) : AdminM Response := do
  let subscription ← adminBody mallow access json
  let tenantUuids ← raising .access (ofExcept (access.visibleTenants true))
  let kwargs ← raising .rest (keywords text subscription)
  let s ← raising (.rest ∘ .service)
    (update masterTenantUuid fault subscriptionUuid kwargs order tenantUuids none)
  pure (.item (dump s))

def delete (subscriptionUuid : String) : AdminM Response := do
  let tenantUuids ← raising .access (ofExcept (access.visibleTenants true))
  raising (.rest ∘ .service)
    (SubscriptionService.delete masterTenantUuid fault subscriptionUuid tenantUuids none)
  pure .noContent

end SubscriptionResource

/-- A request under `/subscriptions` is served by the method of its resource. -/
def UserRequest.serveAdmin : UserRequest → AdminM Response
  | .list args => SubscriptionsResource.get mallow fault access args
  | .post uuid json =>
    SubscriptionsResource.post mallow text masterTenantUuid fault access uuid json
  | .get uuid => SubscriptionResource.get fault access uuid
  | .put uuid json order =>
    SubscriptionResource.put mallow text masterTenantUuid fault access uuid json order
  | .delete uuid => SubscriptionResource.delete masterTenantUuid fault access uuid

end Resources

/-- A token that need not be of a user. -/
structure AnyToken where
  tenantUuid : String
  userUuid : Option String
  xivoUuid : String

def Token.any (token : Token) : AnyToken := ⟨token.tenantUuid, some token.userUuid, token.xivoUuid⟩

def AnyToken.owned (token : AnyToken) (subscription : LoadedDict) : LoadedDict :=
  (((subscription.insert "owner_tenant_uuid" (.str token.tenantUuid)).insert
    "events_user_uuid" (.ofNullable token.userUuid)).insert
    "owner_user_uuid" (.ofNullable token.userUuid)).insert
    "events_wazo_uuid" (.str token.xivoUuid)

section Me
variable (mallow : Mallow) (text : Json → Option String) (masterTenantUuid : String)
  (fault : Option Fault) (token : AnyToken)

/-- The endpoints under `/users/me/subscriptions`, with any token. -/
def UserRequest.serveMe : UserRequest → RestM Response
  | .list args => do
    let params ← raising .load (ofExcept (loadListParams mallow args))
    let subscriptions ← raising .service
      (SubscriptionService.list fault [token.tenantUuid] token.userUuid none params.searchMetadata)
    pure (.items (subscriptions.map dump) subscriptions.length)
  | .post uuid json => do
    let subscription ← raising .load (ofExcept (mallow.load (userSubscriptionSchema mallow) json))
    let kwargs ← keywords text (token.owned subscription)
    let s ← raising .service (create masterTenantUuid fault uuid kwargs)
    pure (.item (dump s))
  | .get uuid => do
    let s ← raising .service
      (SubscriptionService.get fault uuid [token.tenantUuid] token.userUuid)
    pure (.item (dump s))
  | .put uuid json order => do
    let subscription ← raising .load (ofExcept (mallow.load (userSubscriptionSchema mallow) json))
    let kwargs ← keywords text subscription
    let s ← raising .service
      (update masterTenantUuid fault uuid kwargs order [token.tenantUuid] token.userUuid)
    pure (.item (dump s))
  | .delete uuid => do
    raising .service
      (SubscriptionService.delete masterTenantUuid fault uuid [token.tenantUuid] token.userUuid)
    pure .noContent

/-- A token of a user is served as before. -/
theorem serveMe_any (token : Token) (request : UserRequest) :
    request.serveMe mallow text masterTenantUuid fault token.any =
      request.serve mallow text masterTenantUuid fault token := by
  cases request <;> rfl

end Me

end WazoWebhookd

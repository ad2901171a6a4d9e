import WazoWebhookd.Library.Failing
import WazoWebhookd.Subscription.BusEventHandler
import WazoWebhookd.Subscription.Schema

/-! The subscription service: database sessions, the pubsub and the lifecycle events. -/
namespace WazoWebhookd
open Failing

inductive Lifecycle
  | created
  | updated
  | deleted
  deriving DecidableEq

/-- A `webhookd_subscription_*` event; the user events carry less and name the user. -/
inductive LifecycleEvent
  | full (kind : Lifecycle) (subscription : SubscriptionDict) (tenantUuid : String)
  | user (kind : Lifecycle) (subscription : UserSubscriptionDict) (tenantUuid userUuid : String)
  deriving DecidableEq

/-- The event the notifier builds, by the kind of its method. -/
def lifecycleEvent (kind : Lifecycle) (s : Subscription) : LifecycleEvent :=
  match truthy s.ownerUserUuid with
  | some userUuid => .user kind (userDump s) s.ownerTenantUuid userUuid
  | none => .full kind (dump s) s.ownerTenantUuid

namespace SubscriptionNotifier

def created (s : Subscription) : LifecycleEvent := lifecycleEvent .created s

def updated (s : Subscription) : LifecycleEvent := lifecycleEvent .updated s

def deleted (s : Subscription) : LifecycleEvent := lifecycleEvent .deleted s

end SubscriptionNotifier

/-- The stores a call of the service touches, and what left the process. -/
structure World where
  database : List Subscription
  handler : SubscriptionBusEventHandler
  pubsubLog : List Notification
  busLog : List LifecycleEvent

/-- The step of a call that fails for a reason of its own: a lost connection, a value the
driver cannot store, a broker that is down. -/
inductive Fault
  | lookup
  | firstFlush
  | flush
  | notifier
  | commit
  deriving DecidableEq

inductive ServiceError
  | noSuchSubscription (uuid : String)
  | integrityError
  | keyError
  | fault (f : Fault)
  deriving DecidableEq

abbrev ServiceM := Failing World ServiceError

namespace SubscriptionService

/-- The filters of `list` and `_get`; an empty one does not filter. -/
def Visible (ownerTenantUuids : List String) (ownerUserUuid : Option String)
    (s : Subscription) : Prop :=
  (ownerTenantUuids ≠ [] → s.ownerTenantUuid ∈ ownerTenantUuids) ∧
    ((truthy ownerUserUuid).isSome → s.ownerUserUuid = truthy ownerUserUuid)

instance (ownerTenantUuids : List String) (ownerUserUuid : Option String) (s : Subscription) :
    Decidable (Visible ownerTenantUuids ownerUserUuid s) :=
  inferInstanceAs (Decidable ((_ → _) ∧ (_ → _)))

def find (database : List Subscription) (uuid : String) (ownerTenantUuids : List String)
    (ownerUserUuid : Option String) : Option Subscription :=
  database.find? fun s => s.uuid = uuid ∧ Visible ownerTenantUuids ownerUserUuid s

/-- The subscriptions of the metadata subquery: as many distinct keys among the matching rows
as there are keys searched for. -/
def MatchesMetadata (searchMetadata : SearchMetadata) (s : Subscription) : Prop :=
  ((s.metadataRel.filter fun m => m.key ∈ searchMetadata ∧
    m.value = searchMetadata.lookup m.key).map (·.key)).dedup.length = searchMetadata.keys.card

instance (searchMetadata : SearchMetadata) (s : Subscription) :
    Decidable (MatchesMetadata searchMetadata s) := inferInstanceAs (Decidable (_ = _))

section Calls
variable (masterTenantUuid : String) (fault : Option Fault)

def failAt (f : Fault) : ServiceM Unit :=
  if fault = some f then throw (.fault f) else pure ()

/-- `rw_session`: a rollback restores the database and nothing else. -/
def rwSession {α : Type} (body : ServiceM α) : ServiceM α :=
  session (fun before after => { after with database := before.database })
    (failAt fault .commit) body

def get_ (uuid : String) (ownerTenantUuids : List String) (ownerUserUuid : Option String) :
    ServiceM Subscription := do
  failAt fault .lookup
  let w ← get
  match find w.database uuid ownerTenantUuids ownerUserUuid with
  | none => throw (.noSuchSubscription uuid)
  | some s => pure s

protected def list (ownerTenantUuids : List String) (ownerUserUuid eventsUserUuid : Option String)
    (searchMetadata : SearchMetadata) : ServiceM (List Subscription) := do
  failAt fault .lookup
  let w ← get
  pure (w.database.filter fun s => Visible ownerTenantUuids ownerUserUuid s ∧
    ((truthy eventsUserUuid).isSome → s.eventsUserUuid = truthy eventsUserUuid) ∧
    (searchMetadata ≠ ∅ → MatchesMetadata searchMetadata s))

protected def get (uuid : String) (ownerTenantUuids : List String)
    (ownerUserUuid : Option String) : ServiceM Subscription :=
  get_ fault uuid ownerTenantUuids ownerUserUuid

/-- `session.flush()`, which finds out about the constraints. -/
def flush (f : Fault) : ServiceM Unit := do
  failAt fault f
  let w ← get
  if Constraints w.database then pure () else throw .integrityError

def store (s : Subscription) : ServiceM Unit :=
  modify fun w =>
    { w with database := w.database.map fun t => if t.uuid = s.uuid then s else t }

/-- `pubsub.publish`, which calls the subscribed handler. -/
def publish (n : Notification) : ServiceM Unit := do
  modify fun w => { w with pubsubLog := w.pubsubLog ++ [n] }
  let w ← get
  match w.handler.handle masterTenantUuid n with
  | .ok h => modify fun w => { w with handler := h }
  | .error .keyError => throw .keyError

def notify (event : LifecycleEvent) : ServiceM Unit := do
  failAt fault .notifier
  modify fun w => { w with busLog := w.busLog ++ [event] }

def create (uuid : String) (newSubscription : SchemaKwargs) : ServiceM Subscription :=
  rwSession fault do
    match newSubscription.ownerTenantUuid with
    | none =>
      -- The column is not nullable.
      failAt fault .flush
      throw .integrityError
    | some ownerTenantUuid =>
      let s := (Subscription.blank uuid ownerTenantUuid).fromSchema newSubscription
      modify fun w => { w with database := w.database ++ [s] }
      flush fault .flush
      publish masterTenantUuid (.created s)
      notify fault (SubscriptionNotifier.created s)
      pure s

/-- `update`, with the order in which the handler will iterate over the events. -/
def update (uuid : String) (newSubscription : SchemaKwargs) (order : List String)
    (ownerTenantUuids : List String) (ownerUserUuid : Option String) : ServiceM Subscription :=
  rwSession fault do
    let s ← get_ fault uuid ownerTenantUuids ownerUserUuid
    let cleared := s.clearRelations
    store cleared
    flush fault .firstFlush
    let s' := cleared.fromSchema newSubscription
    store s'
    flush fault .flush
    publish masterTenantUuid (.updated s' order)
    notify fault (SubscriptionNotifier.updated s')
    pure s'

def delete (uuid : String) (ownerTenantUuids : List String) (ownerUserUuid : Option String) :
    ServiceM Unit :=
  rwSession fault do
    let s ← get_ fault uuid ownerTenantUuids ownerUserUuid
    modify fun w => { w with database := w.database.filter fun t => t.uuid ≠ s.uuid }
    publish masterTenantUuid (.deleted s)
    notify fault (SubscriptionNotifier.deleted s)

end Calls

end SubscriptionService

end WazoWebhookd

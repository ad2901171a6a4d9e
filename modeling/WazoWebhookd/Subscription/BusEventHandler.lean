import WazoWebhookd.Bus.Consumer
import WazoWebhookd.Database.Models

/-! The router of the subscription plugin: the registry of callbacks, and the consumer
calls with which it follows the created, updated and deleted notifications. -/
namespace WazoWebhookd

/-- `partial(self._callback, data)`. Two such objects are equal when they are the same
object, which `id` stands for. -/
structure Callback where
  id : ℕ
  subscription : SubscriptionDict
  deriving DecidableEq

structure CallbackRow where
  fn : Callback
  events : List String
  headers : Headers
  deriving DecidableEq

/-- The state of a `SubscriptionBusEventHandler` and of the consumer it drives. -/
structure SubscriptionBusEventHandler where
  subscriptionCallbacks : String → Option CallbackRow
  busConsumer : Consumer Callback
  nextId : ℕ

/-- The event for which the user headers are replaced. -/
def globalVoicemailMessageCreated : String := "global_voicemail_message_created"

def handleTenantEvents (eventName : String) (headers : Headers) : Headers :=
  if eventName = globalVoicemailMessageCreated then
    (headers.filterKeys fun key => ¬ startswith key "user_uuid:").insert "user_uuid:*" (.bool true)
  else headers

/-- `_build_headers`, once the master tenant is known. -/
def buildHeaders (masterTenantUuid : String) (s : Subscription) : Headers :=
  let headers : Headers := Finmap.singleton "x-subscription" (.str s.uuid)
  let headers := if s.ownerTenantUuid ≠ masterTenantUuid
    then headers.insert "tenant_uuid" (.str s.ownerTenantUuid) else headers
  let headers := match truthy s.eventsUserUuid with
    | some userUuid => headers.insert ("user_uuid:" ++ userUuid) (.bool true)
    | none => headers
  match truthy s.eventsWazoUuid with
  | some wazoUuid => headers.insert "origin_uuid" (.str wazoUuid)
  | none => headers

/-- A call of the handler on the bus consumer. -/
inductive BusCall
  | subscribe (event : String) (fn : Callback) (headers : Headers)
  | unsubscribe (event : String) (fn : Callback)
  deriving DecidableEq

def BusCall.fn : BusCall → Callback
  | .subscribe _ fn _ => fn
  | .unsubscribe _ fn => fn

def Consumer.call (c : Consumer Callback) : BusCall → Consumer Callback
  | .subscribe event fn headers => c.subscribe event fn headers
  | .unsubscribe event fn => c.unsubscribe event fn

/-- What is left of a handler method after its first locked access to the registry. -/
inductive Action
  | bus (call : BusCall)
  | store (uuid : String) (row : CallbackRow)
  deriving DecidableEq

def registerCalls (fn : Callback) (extraHeaders : Headers) (events : List String) :
    List BusCall :=
  events.map fun event => .subscribe event fn (handleTenantEvents event extraHeaders)

def unregisterCalls (fn : Callback) (events : List String) : List BusCall :=
  events.map fun event => .unsubscribe event fn

/-- One turn of the loop of `_update`, with the headers of this turn. -/
def updateTurn (s : Subscription) (fn : Callback) (prev : CallbackRow) (event : String)
    (headers : Headers) : List BusCall :=
  if event ∉ s.events then [.unsubscribe event prev.fn]
  else if event ∉ prev.events then [.subscribe event fn headers]
  else if headers ≠ prev.headers then [.subscribe event fn headers, .unsubscribe event prev.fn]
  else [.unsubscribe event prev.fn, .subscribe event fn headers]

/-- The loop of `_update` over `all_events` in the given order. `headers` is assigned in
the loop, so that every turn starts from the headers of the turn before. -/
def updateLoop (s : Subscription) (fn : Callback) (prev : CallbackRow) :
    List String → Headers → List BusCall × Headers
  | [], headers => ([], headers)
  | event :: rest, headers =>
    let headers := handleTenantEvents event headers
    let after := updateLoop s fn prev rest headers
    (updateTurn s fn prev event headers ++ after.1, after.2)

inductive HandlerError
  | keyError
  deriving DecidableEq

/-- A notification of the service. The update carries the order in which the loop of
`_update` iterates over its set of events. -/
inductive Notification
  | created (s : Subscription)
  | updated (s : Subscription) (order : List String)
  | deleted (s : Subscription)
  deriving DecidableEq

namespace SubscriptionBusEventHandler

def init (exchangeType : String) : SubscriptionBusEventHandler :=
  ⟨fun _ => none, .empty exchangeType, 0⟩

/-- `_register` up to its loop. -/
def registerStart (masterTenantUuid : String) (h : SubscriptionBusEventHandler)
    (s : Subscription) : SubscriptionBusEventHandler × List Action :=
  let row : CallbackRow := ⟨⟨h.nextId, dump s⟩, s.events, buildHeaders masterTenantUuid s⟩
  ({ h with
      subscriptionCallbacks := Function.update h.subscriptionCallbacks s.uuid (some row)
      nextId := h.nextId + 1 },
    (registerCalls row.fn row.headers row.events).map .bus)

/-- `_unregister` up to its loop; the default of `pop` has no events. -/
def unregisterStart (h : SubscriptionBusEventHandler) (s : Subscription) :
    SubscriptionBusEventHandler × List Action :=
  match h.subscriptionCallbacks s.uuid with
  | none => (h, [])
  | some row =>
    ({ h with subscriptionCallbacks := Function.update h.subscriptionCallbacks s.uuid none },
      (unregisterCalls row.fn row.events).map .bus)

/-- `_update` up to its loop; `pop` has no default here. -/
def updateStart (masterTenantUuid : String) (h : SubscriptionBusEventHandler)
    (s : Subscription) (order : List String) :
    Except HandlerError (SubscriptionBusEventHandler × List Action) :=
  let fn : Callback := ⟨h.nextId, dump s⟩
  match h.subscriptionCallbacks s.uuid with
  | none => .error .keyError
  | some prev =>
    let loop := updateLoop s fn prev order (buildHeaders masterTenantUuid s)
    .ok ({ h with
        subscriptionCallbacks := Function.update h.subscriptionCallbacks s.uuid none
        nextId := h.nextId + 1 },
      loop.1.map .bus ++ [.store s.uuid ⟨fn, s.events, loop.2⟩])

/-- The first locked access of the method that handles a notification. -/
def start (masterTenantUuid : String) (h : SubscriptionBusEventHandler) :
    Notification → Except HandlerError (SubscriptionBusEventHandler × List Action)
  | .created s => .ok (h.registerStart masterTenantUuid s)
  | .updated s order => h.updateStart masterTenantUuid s order
  | .deleted s => .ok (h.unregisterStart s)

def act (h : SubscriptionBusEventHandler) : Action → SubscriptionBusEventHandler
  | .bus call => { h with busConsumer := h.busConsumer.call call }
  | .store uuid row =>
    { h with subscriptionCallbacks := Function.update h.subscriptionCallbacks uuid (some row) }

/-- A method run to its end with nothing in between. -/
def finish (p : SubscriptionBusEventHandler × List Action) : SubscriptionBusEventHandler :=
  p.2.foldl act p.1

def register (masterTenantUuid : String) (h : SubscriptionBusEventHandler) (s : Subscription) :
    SubscriptionBusEventHandler :=
  finish (h.registerStart masterTenantUuid s)

def unregister (h : SubscriptionBusEventHandler) (s : Subscription) :
    SubscriptionBusEventHandler :=
  finish (h.unregisterStart s)

def update (masterTenantUuid : String) (h : SubscriptionBusEventHandler) (s : Subscription)
    (order : List String) : Except HandlerError SubscriptionBusEventHandler :=
  (h.updateStart masterTenantUuid s order).map finish

def handle (masterTenantUuid : String) (h : SubscriptionBusEventHandler) :
    Notification → Except HandlerError SubscriptionBusEventHandler
  | .created s => .ok (h.register masterTenantUuid s)
  | .updated s order => h.update masterTenantUuid s order
  | .deleted s => .ok (h.unregister s)

end SubscriptionBusEventHandler

/-- `order` is an iteration over `set(events) | set(prevEvents)`. -/
def IsIteration (order events prevEvents : List String) : Prop :=
  order.Nodup ∧ ∀ e, e ∈ order ↔ e ∈ events ∨ e ∈ prevEvents

instance (order events prevEvents : List String) :
    Decidable (IsIteration order events prevEvents) :=
  decidable_of_iff (order.Nodup ∧ (∀ e ∈ order, e ∈ events ∨ e ∈ prevEvents) ∧
      (∀ e ∈ events, e ∈ order) ∧ ∀ e ∈ prevEvents, e ∈ order) <| by
    unfold IsIteration
    constructor
    · rintro ⟨hn, h1, h2, h3⟩
      exact ⟨hn, fun e => ⟨h1 e, fun h => h.elim (h2 e) (h3 e)⟩⟩
    · rintro ⟨hn, h⟩
      exact ⟨hn, fun e he => (h e).mp he, fun e he => (h e).mpr (.inl he),
        fun e he => (h e).mpr (.inr he)⟩

end WazoWebhookd

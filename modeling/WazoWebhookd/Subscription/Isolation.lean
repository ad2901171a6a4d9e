import WazoWebhookd.Bus.PrivateQueues
import WazoWebhookd.Library.Interleaving
import WazoWebhookd.Subscription.BusCalls

/-! Tenant isolation: under every interleaving of the handlers, what the table holds for a
callback only lets messages of its tenant and of its origin through. -/
namespace WazoWebhookd
open HeadersExchange SubscriptionBusEventHandler

/-- Threads that handle notifications. The atomic steps are the locked accesses to the
registry and the calls on the consumer; the startup registration is a thread with one
`created` task for each listed subscription. -/
abbrev Threads (ι : Type*) :=
  Interleaving.System ι SubscriptionBusEventHandler Action Notification

namespace Threads
variable {ι : Type*}

def init (exchangeType : String) (tasks : ι → List Notification) : Threads ι :=
  ⟨.init exchangeType, fun i => ⟨[], tasks i⟩⟩

def run [DecidableEq ι] (master : String) (σ : Threads ι) (schedule : List ι) : Threads ι :=
  Interleaving.System.run act (start master) σ schedule

end Threads

/-- The arguments of a binding restrict it to the tenant and the origin of `d`. -/
structure Isolates (master : String) (d : SubscriptionDict) (arguments : Headers) : Prop where
  tenant : d.ownerTenantUuid ≠ master →
    arguments.lookup "tenant_uuid" = some (.str d.ownerTenantUuid)
  origin : ∀ {w}, truthy d.eventsWazoUuid = some w →
    arguments.lookup "origin_uuid" = some (.str w)
  matchesAll : arguments.lookup "x-match" = none

/-- The headers of a message are those of the tenant and of the origin of `d`. -/
structure MayReceive (master : String) (headers : Headers) (d : SubscriptionDict) : Prop where
  tenant : d.ownerTenantUuid = master ∨
    headers.lookup "tenant_uuid" = some (.str d.ownerTenantUuid)
  origin : ∀ w, truthy d.eventsWazoUuid = some w → headers.lookup "origin_uuid" = some (.str w)

theorem isolates_buildHeaders (master : String) (s : Subscription) :
    Isolates master (dump s) (buildHeaders master s) where
  tenant h := by
    have hne : ¬ s.ownerTenantUuid = master := h
    rw [lookup_buildHeaders, if_neg (by decide), if_pos rfl, if_neg hne]
    rfl
  origin {w} h := by
    have hw : truthy s.eventsWazoUuid = some w := h
    rw [lookup_buildHeaders, if_neg (by decide), if_neg (by decide), if_pos rfl, hw]
    rfl
  matchesAll := by
    have hu := ne_userKey (k := "x-match") (by decide)
    rw [lookup_buildHeaders]
    simp [hu]

section Isolates
variable {master : String} {d : SubscriptionDict} {headers : Headers}

theorem Isolates.handleTenantEvents (h : Isolates master d headers) (event : String) :
    Isolates master d (handleTenantEvents event headers) where
  tenant ht := by
    rw [lookup_handleTenantEvents_of_not (by decide)]
    exact h.tenant ht
  origin hw := by
    rw [lookup_handleTenantEvents_of_not (by decide)]
    exact h.origin hw
  matchesAll := by
    rw [lookup_handleTenantEvents_of_not (by decide)]
    exact h.matchesAll

theorem Isolates.bindingOf (h : Isolates master d headers) (event : String) :
    Isolates master d (bindingOf event headers).arguments where
  tenant ht := by
    rw [WazoWebhookd.bindingOf, Finmap.lookup_insert_ite, if_neg (by decide)]
    exact h.tenant ht
  origin hw := by
    rw [WazoWebhookd.bindingOf, Finmap.lookup_insert_ite, if_neg (by decide)]
    exact h.origin hw
  matchesAll := by
    rw [WazoWebhookd.bindingOf, Finmap.lookup_insert_ite, if_neg (by decide)]
    exact h.matchesAll

theorem Isolates.matchMode {arguments : Headers} (h : Isolates master d arguments) :
    matchMode arguments = some .all := by
  unfold HeadersExchange.matchMode
  rw [h.matchesAll]

theorem meets_str {k s : String} : Meets headers k (.str s) ↔ headers.lookup k = some (.str s) := by
  unfold Meets
  constructor
  · rintro ⟨w, hw, he⟩
    rw [hw, HeaderValue.pyEq_str.mp he]
  · intro h
    exact ⟨_, h, HeaderValue.pyEq_str.mpr rfl⟩

/-- Whatever passes a binding that isolates `d` is for `d`. -/
theorem Isolates.mayReceive {arguments : Headers} (h : Isolates master d arguments)
    (hd : Delivers arguments headers) : MayReceive master headers d := by
  unfold Delivers at hd
  rw [h.matchMode] at hd
  constructor
  · by_cases ht : d.ownerTenantUuid = master
    · exact Or.inl ht
    · exact Or.inr (meets_str.mp (hd _ _ (h.tenant ht) (by decide)))
  · intro w hw
    exact meets_str.mp (hd _ _ (h.origin hw) (by decide))

end Isolates

/-- Every entry of the table isolates the subscription its callback is bound to. -/
def SubscriptionBusEventHandler.Isolated (master : String) (h : SubscriptionBusEventHandler) :
    Prop :=
  ∀ e, ∀ entry ∈ h.busConsumer.subscriptions e,
    Isolates master entry.handler.subscription entry.binding.arguments

/-- An action that adds no entry of another kind. -/
def Action.Isolated (master : String) : Action → Prop
  | .bus (.subscribe _ fn headers) => Isolates master fn.subscription headers
  | _ => True

section Steps
variable {master : String} {h : SubscriptionBusEventHandler}

theorem SubscriptionBusEventHandler.Isolated.act (hi : h.Isolated master) {a : Action}
    (ha : a.Isolated master) : (h.act a).Isolated master := by
  cases a with
  | store uuid row => exact hi
  | bus call =>
    intro e entry hentry
    cases call with
    | subscribe event fn headers =>
      change entry ∈ (h.busConsumer.subscribe event fn headers).subscriptions e at hentry
      rw [Consumer.subscribe_subscriptions] at hentry
      split_ifs at hentry
      · rcases List.mem_append.mp hentry with hold | hnew
        · exact hi e entry hold
        · rw [List.mem_singleton.mp hnew]
          exact Isolates.bindingOf ha event
      · exact hi e entry hentry
    | unsubscribe event fn =>
      change entry ∈ (h.busConsumer.unsubscribe event fn).subscriptions e at hentry
      rw [Consumer.unsubscribe_subscriptions] at hentry
      split_ifs at hentry
      · exact hi e entry (List.mem_of_mem_eraseP hentry)
      · exact hi e entry hentry

theorem isolated_registerCalls {fn : Callback} {headers : Headers}
    (hh : Isolates master fn.subscription headers) (events : List String) :
    ∀ a ∈ (registerCalls fn headers events).map Action.bus, a.Isolated master := by
  intro a ha
  obtain ⟨call, hcall, rfl⟩ := List.mem_map.mp ha
  obtain ⟨event, -, rfl⟩ := List.mem_map.mp hcall
  exact hh.handleTenantEvents event

theorem isolated_unregisterCalls (fn : Callback) (events : List String) :
    ∀ a ∈ (unregisterCalls fn events).map Action.bus, a.Isolated master := by
  intro a ha
  obtain ⟨call, hcall, rfl⟩ := List.mem_map.mp ha
  obtain ⟨event, -, rfl⟩ := List.mem_map.mp hcall
  trivial

/-- The rewriting inside the loop keeps the tenant and the origin for all later turns. -/
theorem isolated_updateLoop {s : Subscription} {fn : Callback} (prev : CallbackRow)
    (order : List String) {headers : Headers} (hh : Isolates master fn.subscription headers) :
    ∀ a ∈ (updateLoop s fn prev order headers).1.map Action.bus, a.Isolated master := by
  induction order generalizing headers with
  | nil =>
    intro a ha
    cases ha
  | cons event rest ih =>
    have hturn := hh.handleTenantEvents event
    intro a ha
    obtain ⟨call, hcall, rfl⟩ := List.mem_map.mp ha
    rcases List.mem_append.mp hcall with hnow | hlater
    · rcases mem_updateTurn hnow with rfl | rfl
      · exact hturn
      · trivial
    · exact ih hturn _ (List.mem_map_of_mem hlater)

theorem start_busConsumer {n : Notification} {h' : SubscriptionBusEventHandler}
    {actions : List Action} (hs : h.start master n = .ok (h', actions)) :
    h'.busConsumer = h.busConsumer := by
  cases n with
  | created s =>
    cases hs
    rfl
  | deleted s =>
    simp only [SubscriptionBusEventHandler.start, unregisterStart] at hs
    split at hs <;> cases hs <;> rfl
  | updated s order =>
    simp only [SubscriptionBusEventHandler.start, updateStart] at hs
    split at hs <;> cases hs
    rfl

theorem isolated_start {n : Notification} {h' : SubscriptionBusEventHandler}
    {actions : List Action} (hs : h.start master n = .ok (h', actions)) :
    ∀ a ∈ actions, a.Isolated master := by
  cases n with
  | created s =>
    cases hs
    exact isolated_registerCalls (isolates_buildHeaders master s) _
  | deleted s =>
    simp only [SubscriptionBusEventHandler.start, unregisterStart] at hs
    split at hs
    · cases hs
      intro a ha
      cases ha
    · cases hs
      exact isolated_unregisterCalls _ _
  | updated s order =>
    simp only [SubscriptionBusEventHandler.start, updateStart] at hs
    split at hs
    · cases hs
    · next prev _ =>
      cases hs
      intro a ha
      rcases List.mem_append.mp ha with hloop | hstore
      · exact isolated_updateLoop prev order (isolates_buildHeaders master s) a hloop
      · rw [List.mem_singleton.mp hstore]
        trivial

@[simp] theorem act_exchangeType (h : SubscriptionBusEventHandler) (a : Action) :
    (h.act a).busConsumer.exchangeType = h.busConsumer.exchangeType := by
  cases a with
  | store uuid row => rfl
  | bus call => cases call <;> simp [act, Consumer.call]

end Steps

theorem Threads.isolated_run {ι : Type*} [DecidableEq ι] (master exchangeType : String)
    (tasks : ι → List Notification) (schedule : List ι) :
    let h := ((Threads.init exchangeType tasks).run master schedule).shared
    h.busConsumer.exchangeType = exchangeType ∧ h.Isolated master := by
  have hinit : (Threads.init exchangeType tasks).Keeps
      (fun h => h.busConsumer.exchangeType = exchangeType ∧ h.Isolated master)
      (Action.Isolated master) := by
    refine ⟨⟨rfl, ?_⟩, ?_⟩
    · intro e entry hentry
      cases hentry
    · intro i a ha
      cases ha
  refine (hinit.run ?_ ?_ schedule).1
  · intro h a hi ha
    exact ⟨(act_exchangeType h a).trans hi.1, hi.2.act ha⟩
  · intro h n h' actions hi hs
    have hbus := start_busConsumer hs
    have hi' : h'.Isolated master := by
      intro e entry hentry
      exact hi.2 e entry (hbus ▸ hentry)
    exact ⟨⟨hbus ▸ hi.1, hi'⟩, isolated_start hs⟩

section Dispatch
variable {ι P ε : Type*} [DecidableEq ι] (wantsHeaders : Callback → Bool)
  (call : ℕ → Callback → HandlerArgs P → Except ε Unit)

/-- A message without a headers map reaches no handler: the first match raises. -/
theorem dispatch_without_headers {c : Consumer Callback} (hx : c.exchangeType = "headers")
    (event : String) (payload : P) {done : Dispatched Callback P ε}
    (hd : c.dispatch wantsHeaders call event payload none = .ok done) : done.invoked = [] := by
  unfold Consumer.dispatch at hd
  rw [hx] at hd
  cases hs : c.subscriptions event with
  | nil =>
    rw [hs] at hd
    cases hd
    rfl
  | cons entry rest =>
    rw [hs] at hd
    cases hd

/-- In every state the threads can reach, a message is handed to a callback only if it is
of the tenant of the callback's subscription (or that is the master tenant) and of its
origin. -/
theorem tenant_isolation (master : String) (tasks : ι → List Notification)
    (schedule : List ι) (event : String) (payload : P) :
    let h := ((Threads.init "headers" tasks).run master schedule).shared
    (∀ headers, ∃ done,
      h.busConsumer.dispatch wantsHeaders call event payload (some headers) = .ok done ∧
        ∀ called ∈ done.invoked, MayReceive master headers called.1.handler.subscription) ∧
      ∀ done, h.busConsumer.dispatch wantsHeaders call event payload none = .ok done →
        done.invoked = [] := by
  intro h
  obtain ⟨hx, hi⟩ := Threads.isolated_run master "headers" tasks schedule
  constructor
  · intro headers
    have hm : ∀ entry ∈ h.busConsumer.subscriptions event,
        matchMode entry.binding.arguments ≠ none := by
      intro entry hentry
      rw [(hi event entry hentry).matchMode]
      exact Option.some_ne_none _
    obtain ⟨done, hdone, hinv⟩ :=
      dispatch_eq_privateReceivers wantsHeaders call h.busConsumer hx event payload headers hm
    refine ⟨done, hdone, ?_⟩
    intro called hcalled
    have hmem : called.1 ∈ h.busConsumer.privateReceivers event headers :=
      hinv ▸ List.mem_map_of_mem hcalled
    obtain ⟨hentry, hdel⟩ := Consumer.mem_privateReceivers.mp hmem
    exact (hi event _ hentry).mayReceive hdel
  · intro done hd
    exact dispatch_without_headers wantsHeaders call hx event payload hd

end Dispatch

end WazoWebhookd

import WazoWebhookd.Library.Failing
import WazoWebhookd.Subscription.FailingCalls
import WazoWebhookd.Subscription.Interest

/-! The versions of the subscriptions that stand behind the entries of the consumer's table, and
the users whose messages these entries let through. -/
namespace WazoWebhookd
open HeadersExchange SubscriptionBusEventHandler

/-- The headers with which the events of `s` are subscribed: its own, or those in which the
global voicemail event has replaced the user. -/
def HeadersOf (master : String) (s : Subscription) (headers : Headers) : Prop :=
  headers = buildHeaders master s ∨ headers = rewriteUserHeaders (buildHeaders master s)

theorem HeadersOf.handleTenantEvents {master : String} {s : Subscription} {headers : Headers}
    (h : HeadersOf master s headers) (event : String) :
    HeadersOf master s (handleTenantEvents event headers) := by
  by_cases he : event = globalVoicemailMessageCreated
  · subst he
    change HeadersOf master s (rewriteUserHeaders headers)
    right
    rcases h with rfl | rfl
    · rfl
    · exact rewriteUserHeaders_idem _
  · rw [handleTenantEvents_of_ne he]
    exact h

/-- The entry is one of the version `s`. -/
structure MadeFrom (master : String) (s : Subscription) (event : String) (entry : Entry Callback) :
    Prop where
  handler : entry.handler.subscription = dump s
  binding : ∃ headers, HeadersOf master s headers ∧ entry.binding = bindingOf event headers

/-- A version in `P` stands behind every entry of the table. -/
def SubscriptionBusEventHandler.Attributed (master : String) (P : Subscription → Prop)
    (h : SubscriptionBusEventHandler) : Prop :=
  ∀ e, ∀ entry ∈ h.busConsumer.subscriptions e, ∃ s, P s ∧ MadeFrom master s e entry

/-- An action that subscribes the events of such a version, or subscribes nothing. -/
def Action.Attributed (master : String) (P : Subscription → Prop) : Action → Prop
  | .bus (.subscribe _ fn headers) =>
    ∃ s, P s ∧ fn.subscription = dump s ∧ HeadersOf master s headers
  | _ => True

/-- The version that a notification brings. -/
def Notification.version : Notification → Option Subscription
  | .created s => some s
  | .updated s _ => some s
  | .deleted _ => none

section Steps
variable {master : String} {P : Subscription → Prop} {h : SubscriptionBusEventHandler}

theorem attributed_init (exchangeType : String) :
    (SubscriptionBusEventHandler.init exchangeType).Attributed master P := by
  intro e entry hentry
  cases hentry

theorem SubscriptionBusEventHandler.Attributed.act (hi : h.Attributed master P) {a : Action}
    (ha : a.Attributed master P) : (h.act a).Attributed master P := by
  cases a with
  | store uuid row => exact hi
  | bus call =>
    intro e entry hentry
    cases call with
    | subscribe event fn headers =>
      change entry ∈ (h.busConsumer.subscribe event fn headers).subscriptions e at hentry
      rw [Consumer.subscribe_subscriptions] at hentry
      split_ifs at hentry with he
      · rcases List.mem_append.mp hentry with hold | hnew
        · exact hi e entry hold
        · obtain ⟨s, hs, hdump, hheaders⟩ := ha
          rw [List.mem_singleton.mp hnew]
          exact ⟨s, hs, hdump, headers, hheaders, congrArg (bindingOf · headers) he.symm⟩
      · exact hi e entry hentry
    | unsubscribe event fn =>
      change entry ∈ (h.busConsumer.unsubscribe event fn).subscriptions e at hentry
      rw [Consumer.unsubscribe_subscriptions] at hentry
      split_ifs at hentry
      · exact hi e entry (List.mem_of_mem_eraseP hentry)
      · exact hi e entry hentry

theorem SubscriptionBusEventHandler.Attributed.foldl_act (hi : h.Attributed master P)
    {actions : List Action} (ha : ∀ a ∈ actions, a.Attributed master P) :
    (actions.foldl SubscriptionBusEventHandler.act h).Attributed master P := by
  induction actions generalizing h with
  | nil => exact hi
  | cons a actions ih =>
    exact ih (hi.act (ha a List.mem_cons_self)) fun b hb => ha b (List.mem_cons_of_mem a hb)

theorem attributed_registerCalls {s : Subscription} (hs : P s) {fn : Callback}
    (hfn : fn.subscription = dump s) (events : List String) :
    ∀ a ∈ (registerCalls fn (buildHeaders master s) events).map Action.bus,
      a.Attributed master P := by
  intro a ha
  obtain ⟨call, hcall, rfl⟩ := List.mem_map.mp ha
  obtain ⟨event, -, rfl⟩ := List.mem_map.mp hcall
  have hown : HeadersOf master s (buildHeaders master s) := Or.inl rfl
  exact ⟨s, hs, hfn, hown.handleTenantEvents event⟩

/-- Every turn of the loop has the headers of the version, replaced or not. -/
theorem attributed_updateLoop {s : Subscription} (hs : P s) {fn : Callback}
    (hfn : fn.subscription = dump s) (prev : CallbackRow) (order : List String)
    {headers : Headers} (hh : HeadersOf master s headers) :
    ∀ a ∈ (updateLoop s fn prev order headers).1.map Action.bus, a.Attributed master P := by
  induction order generalizing headers with
  | nil =>
    intro a ha
    cases ha
  | cons event rest ih =>
    have hturn := hh.handleTenantEvents event
    intro a ha
    obtain ⟨call, hcall, rfl⟩ := List.mem_map.mp ha
    rcases List.mem_append.mp hcall with hnow | hlater
    · rcases mem_updateTurn hnow with rfl | rfl
      · exact ⟨s, hs, hfn, hturn⟩
      · trivial
    · exact ih hturn _ (List.mem_map_of_mem hlater)

theorem attributed_start {n : Notification} (hn : ∀ s, n.version = some s → P s)
    {h' : SubscriptionBusEventHandler} {actions : List Action}
    (hs : h.start master n = .ok (h', actions)) : ∀ a ∈ actions, a.Attributed master P := by
  cases n with
  | created s =>
    cases hs
    exact attributed_registerCalls (hn s rfl) rfl _
  | deleted s =>
    simp only [SubscriptionBusEventHandler.start, unregisterStart] at hs
    split at hs
    · cases hs
      intro a ha
      cases ha
    · cases hs
      intro a ha
      obtain ⟨call, hcall, rfl⟩ := List.mem_map.mp ha
      obtain ⟨event, -, rfl⟩ := List.mem_map.mp hcall
      trivial
  | updated s order =>
    simp only [SubscriptionBusEventHandler.start, updateStart] at hs
    split at hs
    · cases hs
    · next prev _ =>
      cases hs
      intro a ha
      rcases List.mem_append.mp ha with hloop | hstore
      · exact attributed_updateLoop (hn s rfl) rfl prev order (Or.inl rfl) a hloop
      · rw [List.mem_singleton.mp hstore]
        trivial

/-- A notification adds no entry but those of the version it brings. -/
theorem SubscriptionBusEventHandler.Attributed.handle (hi : h.Attributed master P)
    {n : Notification} (hn : ∀ s, n.version = some s → P s) {h' : SubscriptionBusEventHandler}
    (hh : h.handle master n = .ok h') : h'.Attributed master P := by
  rw [handle_eq_start] at hh
  obtain ⟨p, hp, hfinish⟩ := Except.exists_of_map_eq_ok hh
  rw [← hfinish]
  have hbus := start_busConsumer hp
  have hstarted : p.1.Attributed master P := by
    intro e entry hentry
    exact hi e entry (hbus ▸ hentry)
  exact hstarted.foldl_act (attributed_start hn hp)

end Steps

/-- The message is one of the tenant, of the origin and of the user of `d`, or one for all
users. -/
structure Addressed (master : String) (headers : Headers) (d : SubscriptionDict) : Prop
    extends MayReceive master headers d where
  user : ∀ userUuid, truthy d.eventsUserUuid = some userUuid →
    Meets headers ("user_uuid:" ++ userUuid) (.bool true) ∨ Meets headers "user_uuid:*" (.bool true)

section Delivers
variable {master : String} {s : Subscription} {headers : Headers}

theorem HeadersOf.isolates (h : HeadersOf master s headers) :
    Isolates master (dump s) headers := by
  rcases h with rfl | rfl
  · exact isolates_buildHeaders master s
  · exact (isolates_buildHeaders master s).handleTenantEvents globalVoicemailMessageCreated

/-- The headers of a version for a user restrict it to this user, or to all of them. -/
theorem HeadersOf.lookup_user (h : HeadersOf master s headers) {userUuid : String}
    (hu : truthy s.eventsUserUuid = some userUuid) :
    headers.lookup ("user_uuid:" ++ userUuid) = some (.bool true) ∨
      headers.lookup "user_uuid:*" = some (.bool true) := by
  have h1 := ne_userKey (k := "x-subscription") (by decide) userUuid
  have h2 := ne_userKey (k := "tenant_uuid") (by decide) userUuid
  have h3 := ne_userKey (k := "origin_uuid") (by decide) userUuid
  rcases h with rfl | rfl
  · left
    rw [lookup_buildHeaders, if_neg h1, if_neg h2, if_neg h3, hu]
    exact if_pos rfl
  · right
    rw [lookup_rewriteUserHeaders, if_pos rfl]

/-- What passes a binding of the version is addressed to it. -/
theorem MadeFrom.addressed {event : String} {entry : Entry Callback}
    (hm : MadeFrom master s event entry) (hd : Delivers entry.binding.arguments headers) :
    Addressed master headers entry.handler.subscription := by
  obtain ⟨own, hown, hbinding⟩ := hm.binding
  have hisolates := hown.isolates.bindingOf event
  rw [← hbinding] at hisolates
  rw [hm.handler]
  refine ⟨hisolates.mayReceive hd, ?_⟩
  intro userUuid hu
  unfold Delivers at hd
  rw [hisolates.matchMode, hbinding, bindingOf] at hd
  have hname := ne_userKey (k := "name") (by decide) userUuid
  rcases hown.lookup_user hu with huser | hall
  · left
    refine hd _ _ ?_ (not_internal_userKey userUuid)
    rw [Finmap.lookup_insert_of_ne _ hname]
    exact huser
  · right
    refine hd "user_uuid:*" _ ?_ (by decide)
    rw [Finmap.lookup_insert_of_ne _ (by decide)]
    exact hall

end Delivers

section Dispatch
variable {P ε : Type*} (wantsHeaders : Callback → Bool)
  (call : ℕ → Callback → HandlerArgs P → Except ε Unit)

/-- A dispatch calls the callbacks to which the message is addressed, each of which is one of a
version in `Q`. -/
theorem SubscriptionBusEventHandler.Attributed.dispatch {master : String}
    {Q : Subscription → Prop} {h : SubscriptionBusEventHandler} (hi : h.Attributed master Q)
    (hx : h.busConsumer.exchangeType = "headers") (event : String) (payload : P)
    (headers : Headers) :
    ∃ done, h.busConsumer.dispatch wantsHeaders call event payload (some headers) = .ok done ∧
      ∀ called ∈ done.invoked, Addressed master headers called.1.handler.subscription ∧
        ∃ s, Q s ∧ called.1.handler.subscription = dump s := by
  have hm : ∀ entry ∈ h.busConsumer.subscriptions event,
      matchMode entry.binding.arguments ≠ none := by
    intro entry hentry
    obtain ⟨s, -, hmade⟩ := hi event entry hentry
    obtain ⟨own, hown, hbinding⟩ := hmade.binding
    rw [hbinding, (hown.isolates.bindingOf event).matchMode]
    exact Option.some_ne_none _
  obtain ⟨done, hdone, hinv⟩ :=
    dispatch_eq_privateReceivers wantsHeaders call h.busConsumer hx event payload headers hm
  refine ⟨done, hdone, ?_⟩
  intro called hcalled
  have hmem : called.1 ∈ h.busConsumer.privateReceivers event headers :=
    hinv ▸ List.mem_map_of_mem hcalled
  obtain ⟨hentry, hdelivers⟩ := Consumer.mem_privateReceivers.mp hmem
  obtain ⟨s, hs, hmade⟩ := hi event _ hentry
  exact ⟨hmade.addressed hdelivers, s, hs, hmade.handler⟩

variable {ι : Type*} [DecidableEq ι]

theorem Threads.attributed_run (master exchangeType : String) (tasks : ι → List Notification)
    (schedule : List ι) :
    let h := ((Threads.init exchangeType tasks).run master schedule).shared
    h.busConsumer.exchangeType = exchangeType ∧ h.Attributed master fun _ => True := by
  have hinit : (Threads.init exchangeType tasks).Keeps
      (fun h => h.busConsumer.exchangeType = exchangeType ∧ h.Attributed master fun _ => True)
      (Action.Attributed master fun _ => True) := by
    refine ⟨⟨rfl, attributed_init exchangeType⟩, ?_⟩
    intro i a ha
    cases ha
  refine (hinit.run ?_ ?_ schedule).1
  · intro h a hi ha
    exact ⟨(act_exchangeType h a).trans hi.1, hi.2.act ha⟩
  · intro h n h' actions hi hs
    have hbus := start_busConsumer hs
    have hstarted : h'.Attributed master fun _ => True := by
      intro e entry hentry
      exact hi.2 e entry (hbus ▸ hentry)
    exact ⟨⟨hbus ▸ hi.1, hstarted⟩, attributed_start (fun _ _ => trivial) hs⟩

/-- In every state the threads can reach, a message is handed to the callback of a subscription
for a user only if it is about this user, or for all users; and it is of its tenant and of its
origin. -/
theorem user_isolation (master : String) (tasks : ι → List Notification) (schedule : List ι)
    (event : String) (payload : P) (headers : Headers) :
    let h := ((Threads.init "headers" tasks).run master schedule).shared
    ∃ done, h.busConsumer.dispatch wantsHeaders call event payload (some headers) = .ok done ∧
      ∀ called ∈ done.invoked, Addressed master headers called.1.handler.subscription := by
  intro h
  obtain ⟨hx, hi⟩ := Threads.attributed_run master "headers" tasks schedule
  obtain ⟨done, hdone, hcalled⟩ := hi.dispatch wantsHeaders call hx event payload headers
  exact ⟨done, hdone, fun called hmem => (hcalled called hmem).1⟩

end Dispatch

end WazoWebhookd

import WazoWebhookd.Bus.PrivateQueues
import WazoWebhookd.Database.Models

/-! The deprecated calls by which a plugin subscribes to events and takes that back, and the
wrapper of its callback that stays. -/
namespace WazoWebhookd
open KeyedList

/-- The callables in the table of handlers: those that are given to `subscribe`, and the closures
`one_arg_callback`, of which each call makes another. -/
inductive AmqpHandler (F : Type)
  | given (callback : F)
  | oneArgCallback (id : ℕ) (twoArgCallback : F)
  deriving DecidableEq

inductive BusError
  | runtimeError (message : String)
  | keyError (uuid : String)

structure HandlerRecord (F : Type) where
  callback : F
  eventNames : List String
  headers : Headers

/-- The consumer, the events its exchange is bound to, and the map `_handlers`. -/
structure BusConsumer (F : Type) where
  consumer : Consumer (AmqpHandler F)
  exchangeBindings : Finset String
  handlers : Finmap fun _ : String => HandlerRecord F
  nextId : ℕ

namespace BusConsumer
variable {F : Type}

def subscribe (b : BusConsumer F) (event : String) (handler : AmqpHandler F) (headers : Headers) :
    BusConsumer F :=
  { b with
    exchangeBindings := insert event b.exchangeBindings
    consumer := b.consumer.subscribe event handler headers }

def unsubscribe [DecidableEq F] (b : BusConsumer F) (event : String) (handler : AmqpHandler F) :
    BusConsumer F :=
  { b with consumer := b.consumer.unsubscribe event handler }

def handlerHeaders (userUuid wazoUuid : Option String) : Headers :=
  let internal : Headers := Finmap.singleton "x-internal" (.bool true)
  let headers := match truthy userUuid with
    | some userUuid => internal.insert ("user_uuid:" ++ userUuid) (.bool true)
    | none => internal
  match truthy wazoUuid with
  | some wazoUuid => headers.insert "origin_uuid" (.str wazoUuid)
  | none => headers

def subscribeToEventNames (b : BusConsumer F) (uuid : Option String) (eventNames : List String)
    (userUuid wazoUuid : Option String) (callback : F) : Except BusError (BusConsumer F) :=
  match uuid with
  | none => .error (.runtimeError "uuid must be set")
  | some uuid =>
    if eventNames = [] then .ok b
    else
      let oneArgCallback := AmqpHandler.oneArgCallback b.nextId callback
      let headers := handlerHeaders userUuid wazoUuid
      let subscribed := eventNames.foldl (·.subscribe · oneArgCallback headers) b
      .ok { subscribed with
        handlers := subscribed.handlers.insert uuid ⟨callback, eventNames, headers⟩
        nextId := b.nextId + 1 }

def unsubscribeFromEventNames [DecidableEq F] (b : BusConsumer F) (uuid : String) :
    Except BusError (BusConsumer F) :=
  match b.handlers.lookup uuid with
  | none => .error (.keyError uuid)
  | some record =>
    .ok (record.eventNames.foldl (·.unsubscribe · (.given record.callback))
      { b with handlers := b.handlers.erase uuid })

end BusConsumer

/-- The stores that the calls change are what they were. -/
structure BusConsumer.Restored {F : Type} (before after : BusConsumer F) : Prop where
  subscriptions : after.consumer.subscriptions = before.consumer.subscriptions
  queueBindings : after.consumer.queueBindings = before.consumer.queueBindings
  handlers : after.handlers = before.handlers

def Consumer.ofHandler {G : Type} [DecidableEq G] (c : Consumer G) (handler : G) (event : String) :
    List (Entry G) :=
  ofKey Entry.handler handler (c.subscriptions event)

section Entries
variable {G : Type} [DecidableEq G] {c : Consumer G} {handler : G} {headers : Headers}

theorem Consumer.ofHandler_subscribe (event e : String) :
    (c.subscribe event handler headers).ofHandler handler e =
      if e = event then c.ofHandler handler e ++ [⟨handler, bindingOf event headers⟩]
      else c.ofHandler handler e := by
  unfold ofHandler
  rw [subscribe_subscriptions]
  split_ifs with he
  · simp [ofKey]
  · rfl

theorem Consumer.ofHandler_unsubscribe {other : G} (hne : other ≠ handler) (event e : String) :
    (c.unsubscribe event other).ofHandler handler e = c.ofHandler handler e := by
  unfold ofHandler
  rw [unsubscribe_subscriptions]
  split_ifs with he
  · refine ofKey_eraseP_of_ne Entry.handler (fun entry hentry => ?_) _
    have hother : entry.handler = other := by simpa using hentry
    exact hother ▸ hne
  · rfl

theorem Consumer.ofHandler_foldl_subscribe (events : List String) (e : String) :
    (events.foldl (·.subscribe · handler headers) c).ofHandler handler e =
      c.ofHandler handler e ++
        List.replicate (events.count e) ⟨handler, bindingOf e headers⟩ := by
  induction events generalizing c with
  | nil => simp
  | cons event events ih =>
    rw [List.foldl_cons, ih, ofHandler_subscribe]
    by_cases he : e = event
    · subst he
      simp [List.replicate_succ]
    · have hcount : (event :: events).count e = events.count e :=
        List.count_cons_of_ne (Ne.symm he)
      rw [if_neg he, hcount]

theorem Consumer.ofHandler_foldl_unsubscribe {other : G} (hne : other ≠ handler)
    (events : List String) (e : String) :
    (events.foldl (·.unsubscribe · other) c).ofHandler handler e =
      c.ofHandler handler e := by
  induction events generalizing c with
  | nil => rfl
  | cons event events ih => rw [List.foldl_cons, ih, ofHandler_unsubscribe hne]

end Entries

namespace BusConsumer
variable {F : Type} {b : BusConsumer F} {uuid : String} {events : List String}

theorem foldl_consumer (step : BusConsumer F → String → BusConsumer F)
    (consumerStep : Consumer (AmqpHandler F) → String → Consumer (AmqpHandler F))
    (hconsumer : ∀ b event, (step b event).consumer = consumerStep b.consumer event)
    (hhandlers : ∀ b event, (step b event).handlers = b.handlers) (b : BusConsumer F)
    (events : List String) :
    (events.foldl step b).consumer = events.foldl consumerStep b.consumer ∧
      (events.foldl step b).handlers = b.handlers := by
  constructor
  · exact (List.foldl_hom consumer fun b event => (hconsumer b event).symm).symm
  · refine List.foldlRecOn (motive := fun b' => b'.handlers = b.handlers) events step rfl ?_
    intro b' hkept event _
    exact (hhandlers b' event).trans hkept

theorem subscribeToEventNames_spec (b : BusConsumer F) (uuid : String) (hne : events ≠ [])
    (userUuid wazoUuid : Option String) (callback : F) :
    ∃ b₁, b.subscribeToEventNames (some uuid) events userUuid wazoUuid callback = .ok b₁ ∧
      b₁.consumer = events.foldl (·.subscribe · (.oneArgCallback b.nextId callback)
        (handlerHeaders userUuid wazoUuid)) b.consumer ∧
      b₁.handlers = b.handlers.insert uuid
        ⟨callback, events, handlerHeaders userUuid wazoUuid⟩ := by
  obtain ⟨hconsumer, hhandlers⟩ := foldl_consumer
    (·.subscribe · (.oneArgCallback b.nextId callback) (handlerHeaders userUuid wazoUuid))
    (·.subscribe · (.oneArgCallback b.nextId callback) (handlerHeaders userUuid wazoUuid))
    (fun _ _ => rfl) (fun _ _ => rfl) b events
  exact ⟨_, if_neg hne, hconsumer, congrArg (Finmap.insert uuid _) hhandlers⟩

variable [DecidableEq F]

theorem unsubscribeFromEventNames_spec {record : HandlerRecord F}
    (h : b.handlers.lookup uuid = some record) :
    ∃ b₂, b.unsubscribeFromEventNames uuid = .ok b₂ ∧
      b₂.consumer = record.eventNames.foldl (·.unsubscribe · (.given record.callback))
        b.consumer ∧
      b₂.handlers = b.handlers.erase uuid := by
  unfold unsubscribeFromEventNames
  rw [h]
  exact ⟨_, rfl, foldl_consumer (·.unsubscribe · (.given record.callback))
    (·.unsubscribe · (.given record.callback)) (fun _ _ => rfl) (fun _ _ => rfl) _ _⟩

/-- The two calls in a row: the map is restored, and the entries of the wrapper are all there. -/
theorem exists_unsubscribed (hnew : b.handlers.lookup uuid = none) (hne : events ≠ [])
    (userUuid wazoUuid : Option String) (callback : F) :
    ∃ b₁ b₂, b.subscribeToEventNames (some uuid) events userUuid wazoUuid callback = .ok b₁ ∧
      b₁.unsubscribeFromEventNames uuid = .ok b₂ ∧ b₂.handlers = b.handlers ∧
      ∀ e, b₂.consumer.ofHandler (.oneArgCallback b.nextId callback) e =
        b.consumer.ofHandler (.oneArgCallback b.nextId callback) e ++
          List.replicate (events.count e) ⟨.oneArgCallback b.nextId callback,
            bindingOf e (handlerHeaders userUuid wazoUuid)⟩ := by
  obtain ⟨b₁, hsub, hconsumer₁, hhandlers₁⟩ :=
    b.subscribeToEventNames_spec uuid hne userUuid wazoUuid callback
  have hfiled : b₁.handlers.lookup uuid =
      some ⟨callback, events, handlerHeaders userUuid wazoUuid⟩ := by
    rw [hhandlers₁, Finmap.lookup_insert]
  obtain ⟨b₂, hunsub, hconsumer₂, hhandlers₂⟩ := unsubscribeFromEventNames_spec hfiled
  refine ⟨b₁, b₂, hsub, hunsub, ?_, fun e => ?_⟩
  · refine Finmap.ext_lookup fun other => ?_
    rw [hhandlers₂, hhandlers₁]
    by_cases hother : other = uuid
    · rw [hother, Finmap.lookup_erase, hnew]
    · rw [Finmap.lookup_erase_ne hother, Finmap.lookup_insert_of_ne _ hother]
  · have hgiven : AmqpHandler.given callback ≠ .oneArgCallback b.nextId callback := by simp
    rw [hconsumer₂, Consumer.ofHandler_foldl_unsubscribe hgiven, hconsumer₁,
      Consumer.ofHandler_foldl_subscribe]

/-- Nothing is unsubscribed but what another subscription of the callback has added. -/
theorem not_restored (hnew : b.handlers.lookup uuid = none) (hne : events ≠ [])
    (userUuid wazoUuid : Option String) (callback : F) :
    ∃ b₁ b₂, b.subscribeToEventNames (some uuid) events userUuid wazoUuid callback = .ok b₁ ∧
      b₁.unsubscribeFromEventNames uuid = .ok b₂ ∧ ¬ b.Restored b₂ ∧
      b₂.handlers = b.handlers ∧
      ∀ e ∈ events, ⟨.oneArgCallback b.nextId callback,
        bindingOf e (handlerHeaders userUuid wazoUuid)⟩ ∈ b₂.consumer.subscriptions e := by
  obtain ⟨b₁, b₂, hsub, hunsub, hhandlers, hentries⟩ :=
    exists_unsubscribed hnew hne userUuid wazoUuid callback
  refine ⟨b₁, b₂, hsub, hunsub, fun h => ?_, hhandlers, fun e he => ?_⟩
  · obtain ⟨e, he⟩ := List.exists_mem_of_ne_nil events hne
    have hcount : 0 < events.count e := List.count_pos_iff.mpr he
    have hsame := hentries e
    unfold Consumer.ofHandler at hsame
    rw [h.subscriptions] at hsame
    have hlength := congrArg List.length hsame
    rw [List.length_append, List.length_replicate] at hlength
    omega
  · have hcount : events.count e ≠ 0 := (List.count_pos_iff.mpr he).ne'
    have hmem : ⟨.oneArgCallback b.nextId callback,
        bindingOf e (handlerHeaders userUuid wazoUuid)⟩ ∈
          b₂.consumer.ofHandler (.oneArgCallback b.nextId callback) e := by
      rw [hentries]
      exact List.mem_append_right _ (List.mem_replicate.mpr ⟨hcount, rfl⟩)
    exact List.mem_of_mem_filter hmem

/-- A consumer that a plugin, whose callback is `"ping"`, subscribes and unsubscribes. -/
def idle : BusConsumer String where
  consumer := .empty "headers"
  exchangeBindings := ∅
  handlers := ∅
  nextId := 0

theorem not_restored_idle :
    ∃ b₁ b₂, idle.subscribeToEventNames (some "u") ["ping_event"] none none "ping" = .ok b₁ ∧
      b₁.unsubscribeFromEventNames "u" = .ok b₂ ∧ ¬ idle.Restored b₂ := by
  have hnew : idle.handlers.lookup "u" = none := rfl
  have hne : ["ping_event"] ≠ [] := by simp
  obtain ⟨b₁, b₂, hsub, hunsub, hnot, -, -⟩ := not_restored hnew hne none none "ping"
  exact ⟨b₁, b₂, hsub, hunsub, hnot⟩

/-- The callback is called for a message that comes after it was unsubscribed. -/
theorem ping_still_called :
    ∃ b₁ b₂, idle.subscribeToEventNames (some "u") ["ping_event"] none none "ping" = .ok b₁ ∧
      b₁.unsubscribeFromEventNames "u" = .ok b₂ ∧ ¬ idle.Restored b₂ ∧
      ∃ done, b₂.consumer.dispatch (fun _ => false) (fun _ _ _ => (.ok () : Except Unit Unit))
          "ping_event" () (some (Finmap.singleton "name" (.str "ping_event"))) = .ok done ∧
        done.invoked.map (·.1.handler) = [.oneArgCallback 0 "ping"] := by
  refine ⟨_, _, rfl, rfl, fun h => ?_, _, rfl, rfl⟩
  have hsame := congrFun h.subscriptions "ping_event"
  cases hsame

end BusConsumer

end WazoWebhookd

import WazoWebhookd.Hook.CeleryTasks
import WazoWebhookd.Library.Run
import WazoWebhookd.Subscription.BusEventHandler

/-! The callback of a subscription, which enqueues its hook, under the dispatch of the
consumer: what becomes of a message when an enqueuing fails. -/
namespace WazoWebhookd

structure EntryPoint where
  moduleName : String
  attr : String

/-- How `hook_runner_task.delay` fails. -/
inductive EnqueueError
  | operationalError
  | exception
  deriving DecidableEq

structure HookRunnerArgs where
  hookUuid : String
  entryPointName : String
  config : HookConfig
  subscription : SubscriptionDict
  event : Json

def HandlerArgs.event {P : Type*} : HandlerArgs P → P
  | .payload p => p
  | .payloadAndHeaders p _ => p

structure Message where
  name : String
  payload : Json
  headers : Headers

/-- One delivery of a message: the uuids generated for its hooks, and what the enqueuing of
each of them comes to. -/
structure BusDelivery where
  hookUuid : ℕ → String
  delay : ℕ → HookRunnerArgs → Except EnqueueError Unit

/-- What the broker holds of a message. -/
inductive Queued
  | pending
  | acknowledged
  deriving DecidableEq

section Consume
variable (serviceManager : String → Option EntryPoint) (config : HookConfig)

/-- `_callback`; a subscription of a service that does not exist is disabled. -/
def callback (hookUuid : String) (delay : HookRunnerArgs → Except EnqueueError Unit)
    (subscription : SubscriptionDict) (payload : Json) : Except EnqueueError Unit :=
  match serviceManager subscription.service with
  | none => .ok ()
  | some entryPoint =>
    let entryPointName := entryPoint.moduleName ++ ":" ++ entryPoint.attr
    match delay ⟨hookUuid, entryPointName, config, subscription, payload⟩ with
    | .ok () => .ok ()
    | .error .operationalError => .error .operationalError
    | .error .exception => .error .exception

def BusDelivery.call (d : BusDelivery) (i : ℕ) (fn : Callback) (args : HandlerArgs Json) :
    Except EnqueueError Unit :=
  callback serviceManager config (d.hookUuid i) (d.delay i) fn.subscription args.event

/-- `__dispatch` of a delivery. A `partial` of `_callback` takes one argument, and the headers
of a message are a dictionary. -/
def BusDelivery.dispatch (d : BusDelivery) (c : Consumer Callback) (message : Message) :
    Except DispatchError (Dispatched Callback Json EnqueueError) :=
  c.dispatch (fun _ => false) (d.call serviceManager config) message.name message.payload
    (some message.headers)

/-- The message leaves the queue when the dispatch returns, and comes back when it raises. -/
def consume (c : Consumer Callback) (message : Message) : Queued → BusDelivery → Queued
  | .acknowledged, _ => .acknowledged
  | .pending, d =>
    match d.dispatch serviceManager config c message with
    | .ok _ => .acknowledged
    | .error _ => .pending

end Consume

def Consumer.matching {F : Type*} (c : Consumer F) (message : Message) : List (Entry F) :=
  (c.subscriptions message.name).filter fun entry =>
    (checkHeadersMatch c.exchangeType (some message.headers) entry.binding).toOption = some true

section Fails
variable (serviceManager : String → Option EntryPoint) (config : HookConfig)
  (c : Consumer Callback) (message : Message)

/-- The hook of a matching subscription is not enqueued. -/
def BusDelivery.Fails (d : BusDelivery) (e : EnqueueError) : Prop :=
  ∃ i entry, (c.matching message)[i]? = some entry ∧
    d.call serviceManager config i entry.handler (.payload message.payload) = .error e

/-- The message stays in the queue after a failure to reach the task queue, and after no
other. -/
structure Treated (state : Queued) (d : BusDelivery) : Prop where
  kept : state = .pending → d.Fails serviceManager config c message .operationalError →
    consume serviceManager config c message state d ≠ .acknowledged
  dropped : state = .pending →
    (∀ e, d.Fails serviceManager config c message e → e = .exception) →
    consume serviceManager config c message state d ≠ .pending

end Fails

theorem checkHeadersMatch_some (exchangeType : String) (headers : Headers) (binding : Binding) :
    ∃ b, checkHeadersMatch exchangeType (some headers) binding = .ok b := by
  unfold checkHeadersMatch
  split_ifs <;> exact ⟨_, rfl⟩

section Dispatch
variable {F P ε : Type*} (call : ℕ → F → HandlerArgs P → Except ε Unit)

theorem dispatchLoop_logged (exchangeType : String) (payload : P) (headers : Headers)
    (entries : List (Entry F)) (i : ℕ) :
    ∃ done, dispatchLoop (fun _ => false) call exchangeType payload (some headers) i entries =
        .ok done ∧
      ∀ entry e, (entry, e) ∈ done.logged ↔
        ∃ j, (entries.filter fun entry => (checkHeadersMatch exchangeType (some headers)
          entry.binding).toOption = some true)[j]? = some entry ∧
          call (i + j) entry.handler (.payload payload) = .error e := by
  induction entries generalizing i with
  | nil => exact ⟨_, rfl, by simp⟩
  | cons entry rest ih =>
    obtain ⟨b, hb⟩ := checkHeadersMatch_some exchangeType headers entry.binding
    cases b with
    | false =>
      obtain ⟨done, hdone, hlogged⟩ := ih i
      refine ⟨done, ?_, ?_⟩
      · rw [dispatchLoop, hb]
        exact hdone
      · rw [List.filter_cons_of_neg (by simp [hb, Except.toOption])]
        exact hlogged
    | true =>
      obtain ⟨done, hdone, hlogged⟩ := ih (i + 1)
      rw [List.filter_cons_of_pos (by simp [hb, Except.toOption]), dispatchLoop, hb]
      simp only [hdone, Bool.false_eq_true, if_false]
      -- The calls of the rest are numbered from the next one.
      have hsplit : ∀ entry' e, (∃ j, (entry :: rest.filter fun entry =>
          (checkHeadersMatch exchangeType (some headers) entry.binding).toOption = some true)[j]? =
            some entry' ∧ call (i + j) entry'.handler (.payload payload) = .error e) ↔
          (entry = entry' ∧ call i entry'.handler (.payload payload) = .error e) ∨
            (entry', e) ∈ done.logged := by
        intro entry' e
        have hshift : ∀ j, i + 1 + j = i + (j + 1) := by omega
        rw [← Nat.or_exists_add_one, hlogged]
        simp only [List.getElem?_cons_zero, List.getElem?_cons_succ, Nat.add_zero,
          Option.some.injEq, hshift]
      simp only [hsplit]
      cases hcall : call i entry.handler (.payload payload) with
      | ok u =>
        refine ⟨_, rfl, fun entry' e => ?_⟩
        have hfirst : ¬ (entry = entry' ∧ call i entry'.handler (.payload payload) = .error e) := by
          rintro ⟨rfl, he⟩
          cases hcall.symm.trans he
        exact (or_iff_right hfirst).symm
      | error e₀ =>
        refine ⟨_, rfl, fun entry' e => ?_⟩
        rw [List.mem_cons]
        refine or_congr ?_ Iff.rfl
        constructor
        · intro heq
          cases heq
          exact ⟨rfl, hcall⟩
        · rintro ⟨rfl, he⟩
          cases hcall.symm.trans he
          rfl

end Dispatch

section Run
variable (serviceManager : String → Option EntryPoint) (config : HookConfig)
  (c : Consumer Callback) (message : Message)

/-- A failed enqueuing leaves a line in the log, and the dispatch returns. -/
theorem BusDelivery.dispatch_logged (d : BusDelivery) :
    ∃ done, d.dispatch serviceManager config c message = .ok done ∧
      ∀ e, d.Fails serviceManager config c message e ↔ ∃ entry, (entry, e) ∈ done.logged := by
  obtain ⟨done, hdone, hlogged⟩ := dispatchLoop_logged (d.call serviceManager config)
    c.exchangeType message.payload message.headers (c.subscriptions message.name) 0
  refine ⟨done, hdone, ?_⟩
  intro e
  simp only [BusDelivery.Fails, hlogged, Nat.zero_add]
  exact exists_comm

theorem consume_pending (d : BusDelivery) :
    consume serviceManager config c message .pending d = .acknowledged := by
  obtain ⟨done, hdone, -⟩ := d.dispatch_logged serviceManager config c message
  simp only [consume, hdone]

theorem treated_iff (state : Queued) (d : BusDelivery) :
    Treated serviceManager config c message state d ↔
      (state = .pending → ¬ d.Fails serviceManager config c message .operationalError) := by
  constructor
  · intro h hs hfails
    refine h.kept hs hfails ?_
    rw [hs]
    exact consume_pending serviceManager config c message d
  · intro h
    constructor
    · intro hs hfails
      exact absurd hfails (h hs)
    · intro hs _
      rw [hs, consume_pending]
      nofun

/-- A message is treated as its hooks require in the runs where the task queue can be reached
at every delivery. -/
theorem hooks_treated_iff (deliveries : List BusDelivery) :
    Run.Along (consume serviceManager config c message)
        (Treated serviceManager config c message) .pending deliveries ↔
      Run.Along (consume serviceManager config c message)
        (fun state d => state = .pending →
          ¬ d.Fails serviceManager config c message .operationalError) .pending deliveries :=
  Run.along_congr (treated_iff serviceManager config c message)

end Run

/-- A message of the one subscription, while the task queue is down. -/
theorem unreachable_queue_loses_hook :
    let s := { Subscription.blank "5d1f5c38-5d6d-4f5f-8f2f-0d1f8a7c3b01" "tenant" with
      service := "http" }
    let c := (Consumer.empty "headers").subscribe "call_created" (⟨0, dump s⟩ : Callback) ∅
    let message : Message :=
      ⟨"call_created", .obj [], Finmap.singleton "name" (.str "call_created")⟩
    let d : BusDelivery := ⟨fun _ => "", fun _ _ => .error .operationalError⟩
    let serviceManager : String → Option EntryPoint :=
      fun service => if service = "http" then some ⟨"http.plugin", "Service"⟩ else none
    ¬ Run.Along (consume serviceManager ⟨3, 2⟩ c message)
      (Treated serviceManager ⟨3, 2⟩ c message) .pending [d] := by
  intro s c message d serviceManager h
  have hfails : d.Fails serviceManager ⟨3, 2⟩ c message .operationalError :=
    ⟨0, ⟨⟨0, dump s⟩, bindingOf "call_created" ∅⟩, by decide, by decide⟩
  exact (treated_iff serviceManager ⟨3, 2⟩ c message .pending d).mp h.1 rfl hfails

end WazoWebhookd

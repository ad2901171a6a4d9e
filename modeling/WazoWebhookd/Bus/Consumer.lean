import Mathlib.Data.Finset.Basic
import WazoWebhookd.Bus.Headers
import WazoWebhookd.Library.Dictionary
import WazoWebhookd.Library.KeyedList

/-! The bus consumer: one shared queue, a table of handlers per event name, and the
dispatch of a message by matching its headers in the process. -/
namespace WazoWebhookd

/-- `kombu.binding`: the arguments with which a queue is bound to the exchange. -/
structure Binding where
  arguments : Headers
  deriving DecidableEq

/-- One entry of the consumer's `__subscriptions`. -/
structure Entry (F : Type*) where
  handler : F
  binding : Binding
  deriving DecidableEq

/-- The consumer's own state, and the bindings the broker holds for its queue. -/
structure Consumer (F : Type*) where
  exchangeType : String
  subscriptions : String → List (Entry F)
  queueBindings : Finset Binding

/-- The arguments of a binding: the subscriber's headers plus the event name. -/
def bindingOf (event : String) (headers : Headers) : Binding :=
  ⟨headers.insert "name" (.str event)⟩

namespace Consumer
variable {F : Type*}

def empty (exchangeType : String) : Consumer F := ⟨exchangeType, fun _ => [], ∅⟩

def subscribe (c : Consumer F) (event : String) (handler : F) (headers : Headers) :
    Consumer F :=
  { c with
    subscriptions := Function.update c.subscriptions event
      (c.subscriptions event ++ [⟨handler, bindingOf event headers⟩])
    queueBindings := insert (bindingOf event headers) c.queueBindings }

/-- Only the first entry with that handler goes, and its binding with it. -/
def unsubscribe [DecidableEq F] (c : Consumer F) (event : String) (handler : F) :
    Consumer F :=
  match (c.subscriptions event).find? (fun entry => entry.handler = handler) with
  | none => c
  | some entry =>
    { c with
      subscriptions := Function.update c.subscriptions event
        ((c.subscriptions event).eraseP fun entry => entry.handler = handler)
      queueBindings := c.queueBindings.erase entry.binding }

@[simp] theorem subscribe_exchangeType (c : Consumer F) (event : String) (handler : F)
    (headers : Headers) : (c.subscribe event handler headers).exchangeType = c.exchangeType :=
  rfl

@[simp] theorem unsubscribe_exchangeType [DecidableEq F] (c : Consumer F) (event : String)
    (handler : F) : (c.unsubscribe event handler).exchangeType = c.exchangeType := by
  unfold unsubscribe
  split <;> rfl

theorem subscribe_subscriptions (c : Consumer F) (event : String) (handler : F)
    (headers : Headers) (e : String) :
    (c.subscribe event handler headers).subscriptions e =
      if e = event then c.subscriptions e ++ [⟨handler, bindingOf event headers⟩]
      else c.subscriptions e := by
  by_cases h : e = event
  · subst h
    simp [subscribe]
  · simp [subscribe, h]

theorem unsubscribe_subscriptions [DecidableEq F] (c : Consumer F) (event : String)
    (handler : F) (e : String) :
    (c.unsubscribe event handler).subscriptions e =
      if e = event then (c.subscriptions e).eraseP fun entry => entry.handler = handler
      else c.subscriptions e := by
  unfold unsubscribe
  split
  · next hf =>
    by_cases h : e = event
    · subst h
      rw [if_pos rfl, List.eraseP_of_forall_not]
      simpa using hf
    · rw [if_neg h]
  · by_cases h : e = event
    · subst h
      simp
    · simp [h]

end Consumer

inductive DispatchError
  | attributeError
  deriving DecidableEq

/-- `k in headers and headers[k] == v`. -/
def hasHeader (headers : Headers) (k : String) (v : HeaderValue) : Bool :=
  match headers.lookup k with
  | some w => w.pyEq v
  | none => false

def checkHeadersMatch (exchangeType : String) (headers : Option Headers)
    (binding : Binding) : Except DispatchError Bool :=
  if exchangeType ≠ "headers" then .ok true
  else
    let matchAll := match binding.arguments.lookup "x-match" with
      | some v => v.pyEq (.str "all")
      | none => true
    match headers with
    | none => .error .attributeError
    | some headers =>
      let headers := headers.filterKeys fun k => ¬ startswith k "x-"
      let arguments := binding.arguments.filterKeys fun k => ¬ startswith k "x-"
      .ok (if matchAll then arguments.all (hasHeader headers)
        else arguments.any (hasHeader headers))

/-- How a handler is called, after `_wants_headers`. -/
inductive HandlerArgs (P : Type*)
  | payload (payload : P)
  | payloadAndHeaders (payload : P) (headers : Option Headers)

/-- What one dispatch did: the calls it made, and the calls whose exception it logged. -/
structure Dispatched (F P ε : Type*) where
  invoked : List (Entry F × HandlerArgs P)
  logged : List (Entry F × ε)

section Dispatch
variable {F P ε : Type*} (wantsHeaders : F → Bool)
  (call : ℕ → F → HandlerArgs P → Except ε Unit)

/-- The loop of `__dispatch`. `call i` is what the `i`-th call of the loop does; an
exception it raises is logged and the loop goes on. -/
def dispatchLoop (exchangeType : String) (payload : P) (headers : Option Headers) :
    ℕ → List (Entry F) → Except DispatchError (Dispatched F P ε)
  | _, [] => .ok ⟨[], []⟩
  | i, entry :: rest =>
    match checkHeadersMatch exchangeType headers entry.binding with
    | .error e => .error e
    | .ok false => dispatchLoop exchangeType payload headers i rest
    | .ok true =>
      let args : HandlerArgs P := if wantsHeaders entry.handler
        then .payloadAndHeaders payload headers else .payload payload
      match dispatchLoop exchangeType payload headers (i + 1) rest with
      | .error e => .error e
      | .ok after =>
        match call i entry.handler args with
        | .ok () => .ok ⟨(entry, args) :: after.invoked, after.logged⟩
        | .error e => .ok ⟨(entry, args) :: after.invoked, (entry, e) :: after.logged⟩

def Consumer.dispatch (c : Consumer F) (event : String) (payload : P)
    (headers : Option Headers) : Except DispatchError (Dispatched F P ε) :=
  dispatchLoop wantsHeaders call c.exchangeType payload headers 0 (c.subscriptions event)

end Dispatch

end WazoWebhookd

import WazoWebhookd.Library.Run
import WazoWebhookd.Subscription.Isolation
import WazoWebhookd.Subscription.Router

/-! A call on the bus consumer that raises inside a method of the router, and what the
notifications that follow make of it. -/
namespace WazoWebhookd
open SubscriptionBusEventHandler

def Notification.uuid : Notification → String
  | .created s => s.uuid
  | .updated s _ => s.uuid
  | .deleted s => s.uuid

namespace SubscriptionBusEventHandler

/-- A notification whose calls do not fail; an exception of the method leaves the state. -/
def receive (master : String) (h : SubscriptionBusEventHandler) (n : Notification) :
    SubscriptionBusEventHandler :=
  match h.handle master n with
  | .ok h' => h'
  | .error _ => h

/-- The state after some notifications and then a deletion. -/
def afterDeletion (master : String) (h : SubscriptionBusEventHandler) (later : List Notification)
    (s : Subscription) : SubscriptionBusEventHandler :=
  (later ++ [Notification.deleted s]).foldl (receive master) h

def stopped (p : SubscriptionBusEventHandler × List Action) (m : ℕ) :
    SubscriptionBusEventHandler := (p.2.take m).foldl act p.1

/-- Every row of the registry is filed under the subscription of its callback. -/
def Filed (h : SubscriptionBusEventHandler) : Prop :=
  ∀ uuid row, h.subscriptionCallbacks uuid = some row → row.fn.uuid = uuid

end SubscriptionBusEventHandler

def Action.About (uuid : String) : Action → Prop
  | .bus call => call.fn.uuid = uuid
  | .store key row => key = uuid ∧ row.fn.uuid = uuid

namespace SubscriptionBusEventHandler
section Frame
variable {master : String} {h : SubscriptionBusEventHandler} {uuid : String}

theorem filed_act (hf : h.Filed) {a : Action} (ha : a.About uuid) : (h.act a).Filed := by
  cases a with
  | bus call => exact hf
  | store key row =>
    intro key' row' hrow
    change Function.update h.subscriptionCallbacks key (some row) key' = some row' at hrow
    rw [Function.update_apply] at hrow
    split_ifs at hrow with hkey
    · cases hrow
      exact ha.2.trans (ha.1.symm.trans hkey.symm)
    · exact hf _ _ hrow

theorem act_of_ne {a : Action} (ha : a.About uuid) {other : String} (hne : other ≠ uuid) :
    (h.act a).subscriptionCallbacks other = h.subscriptionCallbacks other ∧
      ∀ e, (h.act a).entries other e = h.entries other e := by
  cases a with
  | bus call =>
    refine ⟨rfl, fun e => ofSubscription_foldl_of_ne [call] (fun call' hcall' => ?_) _⟩
    rw [List.mem_singleton.mp hcall']
    exact .inr fun h => hne (h.trans ha)
  | store key row =>
    refine ⟨Function.update_of_ne (fun h => hne (h.trans ha.1)) _ _, fun e => rfl⟩

theorem filed_foldl_act {actions : List Action} (ha : ∀ a ∈ actions, a.About uuid)
    (hf : h.Filed) : (actions.foldl act h).Filed := by
  induction actions generalizing h with
  | nil => exact hf
  | cons a actions ih =>
    exact ih (fun b hb => ha b (List.mem_cons_of_mem a hb)) (filed_act hf (ha a List.mem_cons_self))

theorem foldl_act_of_ne {actions : List Action} (ha : ∀ a ∈ actions, a.About uuid)
    {other : String} (hne : other ≠ uuid) :
    (actions.foldl act h).subscriptionCallbacks other = h.subscriptionCallbacks other ∧
      ∀ e, (actions.foldl act h).entries other e = h.entries other e := by
  induction actions generalizing h with
  | nil => exact ⟨rfl, fun e => rfl⟩
  | cons a actions ih =>
    obtain ⟨hrow, hentries⟩ := act_of_ne (h := h) (ha a List.mem_cons_self) hne
    obtain ⟨hrow', hentries'⟩ := ih (h := h.act a) fun b hb => ha b (List.mem_cons_of_mem a hb)
    exact ⟨hrow'.trans hrow, fun e => (hentries' e).trans (hentries e)⟩

theorem filed_update (hf : h.Filed) (row : Option CallbackRow)
    (hrow : ∀ r, row = some r → r.fn.uuid = uuid) (nextId : ℕ) :
    SubscriptionBusEventHandler.Filed
      ⟨Function.update h.subscriptionCallbacks uuid row, h.busConsumer, nextId⟩ := by
  intro key r hr
  change Function.update h.subscriptionCallbacks uuid row key = some r at hr
  rw [Function.update_apply] at hr
  split_ifs at hr with hkey
  · exact (hrow r hr).trans hkey.symm
  · exact hf _ _ hr

theorem start_about (hf : h.Filed) {n : Notification}
    {p : SubscriptionBusEventHandler × List Action} (hs : h.start master n = .ok p) :
    (∀ a ∈ p.2, a.About n.uuid) ∧ p.1.Filed ∧
      ∀ other ≠ n.uuid, p.1.subscriptionCallbacks other = h.subscriptionCallbacks other := by
  cases n with
  | created s =>
    cases hs
    refine ⟨fun a ha => ?_, filed_update hf (some (newRow master h s)) (fun r hr => ?_) _,
      fun other hne => Function.update_of_ne hne _ _⟩
    · obtain ⟨call, hcall, rfl⟩ := List.mem_map.mp ha
      obtain ⟨event, -, rfl⟩ := List.mem_map.mp hcall
      rfl
    · cases hr
      rfl
  | deleted s =>
    simp only [SubscriptionBusEventHandler.start, unregisterStart] at hs
    split at hs
    · cases hs
      exact ⟨fun a ha => absurd ha List.not_mem_nil, hf, fun other hne => rfl⟩
    · next row hrow =>
      cases hs
      refine ⟨fun a ha => ?_, filed_update hf none (fun r hr => by cases hr) _,
        fun other hne => Function.update_of_ne hne _ _⟩
      obtain ⟨call, hcall, rfl⟩ := List.mem_map.mp ha
      obtain ⟨event, -, rfl⟩ := List.mem_map.mp hcall
      exact hf _ _ hrow
  | updated s order =>
    simp only [SubscriptionBusEventHandler.start, updateStart] at hs
    split at hs
    · cases hs
    · next prev hprev =>
      cases hs
      refine ⟨fun a ha => ?_, filed_update hf none (fun r hr => by cases hr) _,
        fun other hne => Function.update_of_ne hne _ _⟩
      rcases List.mem_append.mp ha with hloop | hstore
      · obtain ⟨call, hcall, rfl⟩ := List.mem_map.mp hloop
        have hprevUuid : prev.fn.uuid = (newFn h s).uuid := hf _ _ hprev
        exact uuid_of_mem_updateLoop hprevUuid hcall
      · rw [List.mem_singleton.mp hstore]
        exact ⟨rfl, rfl⟩

theorem handle_eq_start (h : SubscriptionBusEventHandler) (n : Notification) :
    h.handle master n = (h.start master n).map finish := by
  cases n <;> rfl

theorem receive_of_ne (master : String) (hf : h.Filed) (n : Notification) :
    (h.receive master n).Filed ∧ ∀ other ≠ n.uuid,
      (h.receive master n).subscriptionCallbacks other = h.subscriptionCallbacks other ∧
        ∀ e, (h.receive master n).entries other e = h.entries other e := by
  unfold receive
  rw [handle_eq_start]
  cases hs : h.start master n with
  | error e => exact ⟨hf, fun other hne => ⟨rfl, fun e => rfl⟩⟩
  | ok p =>
    obtain ⟨habout, hfiled, hrow⟩ := start_about hf hs
    have hbus : p.1.busConsumer = h.busConsumer := start_busConsumer hs
    refine ⟨filed_foldl_act habout hfiled, fun other hne => ?_⟩
    obtain ⟨hrow', hentries⟩ := foldl_act_of_ne (h := p.1) habout hne
    refine ⟨hrow'.trans (hrow other hne), fun e => (hentries e).trans ?_⟩
    rw [entries, hbus]
    rfl

/-- The entries of a row under an event, of which some may be missing. -/
def PartOf (row : CallbackRow) (event : String) (found : List (Entry Callback)) : Prop :=
  found = [] ∨ ∃ b, found = rowEntries row event b

/-- The table holds no more of a subscription than its row accounts for. -/
structure Recoverable (h : SubscriptionBusEventHandler) (uuid : String) : Prop where
  filed : h.Filed
  nodup : ∀ row, h.subscriptionCallbacks uuid = some row → row.events.Nodup
  entries_none : h.subscriptionCallbacks uuid = none → ∀ e, h.entries uuid e = []
  entries_some : ∀ row, h.subscriptionCallbacks uuid = some row →
    ∀ e, PartOf row e (h.entries uuid e)

theorem partOf_updateTurn {s : Subscription} {fn : Callback} {prev : CallbackRow}
    {event : String} {headers : Headers} (hu : prev.fn.uuid = fn.uuid) {c : Consumer Callback}
    (hc : PartOf prev event (c.ofSubscription fn.uuid event)) :
    PartOf ⟨fn, s.events, headers⟩ event
      (((updateTurn s fn prev event headers).foldl Consumer.call c).ofSubscription fn.uuid
        event) := by
  rcases hc with hnone | ⟨b, hb⟩
  · unfold PartOf rowEntries
    by_cases hs : event ∈ s.events
    · by_cases hp : event ∈ prev.events
      · by_cases hh : headers = prev.headers
        · rw [updateTurn_kept hs hp hh]
          simp [Consumer.call, Consumer.ofSubscription_subscribe,
            Consumer.ofSubscription_unsubscribe, hnone, hs, hu]
        · rw [updateTurn_changed hs hp hh]
          by_cases hfn : fn = prev.fn
          · simp [Consumer.call, Consumer.ofSubscription_subscribe,
              Consumer.ofSubscription_unsubscribe, hnone, hu, hfn]
          · simp [Consumer.call, Consumer.ofSubscription_subscribe,
              Consumer.ofSubscription_unsubscribe, hnone, hs, hu, hfn]
      · rw [updateTurn_added hs hp]
        simp [Consumer.call, Consumer.ofSubscription_subscribe, hnone, hs]
    · rw [updateTurn_removed hs]
      simp [Consumer.call, Consumer.ofSubscription_unsubscribe, hnone]
  · exact .inr ⟨_, ofSubscription_updateTurn hu hb⟩

theorem partOf_updateLoop {s : Subscription} {fn : Callback} {prev : CallbackRow}
    (hu : prev.fn.uuid = fn.uuid) {order : List String} (hn : order.Nodup) {e : String}
    {c : Consumer Callback} (hc : PartOf prev e (c.ofSubscription fn.uuid e))
    (hout : e ∉ order → e ∉ s.events ∧ e ∉ prev.events) (headers headers' : Headers) :
    PartOf ⟨fn, s.events, headers'⟩ e
      (((updateLoop s fn prev order headers).1.foldl Consumer.call c).ofSubscription fn.uuid
        e) := by
  induction order generalizing c headers with
  | nil =>
    obtain ⟨-, hp⟩ := hout List.not_mem_nil
    rcases hc with hnone | ⟨b, hb⟩
    · exact .inl hnone
    · exact .inl (hb.trans (if_neg hp))
  | cons event rest ih =>
    obtain ⟨hnot, hn'⟩ := List.nodup_cons.mp hn
    unfold updateLoop
    simp only [List.foldl_append]
    by_cases hev : e = event
    · subst hev
      rw [ofSubscription_updateLoop_of_notMem hnot]
      exact partOf_updateTurn hu hc
    · refine ih hn' ?_ (fun hrest => hout fun hmem => ?_) _
      · rw [ofSubscription_updateTurn_of_ne hev]
        exact hc
      · exact hrest ((List.mem_cons.mp hmem).resolve_left hev)

/-- A notification that may follow: the subscription is not created again, and an update iterates
over the events there are. -/
def Follows (uuid : String) (h : SubscriptionBusEventHandler) : Notification → Prop
  | .created s => s.uuid ≠ uuid
  | .updated s order => s.uuid = uuid → s.events.Nodup ∧
      ∀ row, h.subscriptionCallbacks uuid = some row → IsIteration order s.events row.events
  | .deleted _ => True

theorem Recoverable.deleted (hr : h.Recoverable uuid) {s : Subscription} (hs : s.uuid = uuid) :
    (h.unregister s).subscriptionCallbacks uuid = none ∧
      ∀ e, (h.unregister s).entries uuid e = [] := by
  subst hs
  refine ⟨(unregister_subscriptionCallbacks h s s.uuid).trans (if_pos rfl), fun e => ?_⟩
  cases hrow : h.subscriptionCallbacks s.uuid with
  | none =>
    rw [unregister_of_none hrow]
    exact hr.entries_none hrow e
  | some row =>
    rw [entries_unregister hrow (hr.filed _ _ hrow) (hr.nodup row hrow)]
    rcases hr.entries_some row hrow e with hnone | ⟨b, hb⟩
    · rw [hnone]
      exact ite_self []
    · rw [hb]
      by_cases he : e ∈ row.events <;> simp [rowEntries, he]

theorem Recoverable.receive (hr : h.Recoverable uuid) {n : Notification} (hn : Follows uuid h n) :
    (h.receive master n).Recoverable uuid := by
  obtain ⟨hfiled, hother⟩ := receive_of_ne master hr.filed n
  by_cases hne : uuid ≠ n.uuid
  · obtain ⟨hrow, hentries⟩ := hother uuid hne
    refine ⟨hfiled, ?_, ?_, ?_⟩
    · rw [hrow]
      exact hr.nodup
    · rw [hrow]
      exact fun h e => (hentries e).trans (hr.entries_none h e)
    · rw [hrow]
      exact fun row h e => hentries e ▸ hr.entries_some row h e
  · have huuid : n.uuid = uuid := (not_not.mp hne).symm
    cases n with
    | created s => exact absurd huuid hn
    | deleted s =>
      obtain ⟨hrow, hentries⟩ := hr.deleted huuid
      exact ⟨hfiled, fun row h => (nomatch hrow.symm.trans h), fun _ => hentries,
        fun row h => (nomatch hrow.symm.trans h)⟩
    | updated s order =>
      obtain rfl : s.uuid = uuid := huuid
      obtain ⟨hnodup, hiter⟩ := hn rfl
      cases hprev : h.subscriptionCallbacks s.uuid with
      | none =>
        have hsame : h.receive master (.updated s order) = h := by
          simp only [SubscriptionBusEventHandler.receive, handle, update_of_none hprev]
        rw [hsame]
        exact hr
      | some prev =>
        have ho := hiter prev hprev
        have hstep : h.receive master (.updated s order) =
            ⟨Function.update h.subscriptionCallbacks s.uuid (some ⟨newFn h s, s.events,
                (updateLoop s (newFn h s) prev order (buildHeaders master s)).2⟩),
              (updateLoop s (newFn h s) prev order (buildHeaders master s)).1.foldl
                Consumer.call h.busConsumer, h.nextId + 1⟩ := by
          simp only [SubscriptionBusEventHandler.receive, handle, update_of_some hprev]
        have hrow : (h.receive master (.updated s order)).subscriptionCallbacks s.uuid =
            some ⟨newFn h s, s.events,
              (updateLoop s (newFn h s) prev order (buildHeaders master s)).2⟩ := by
          rw [hstep]
          exact Function.update_self _ _ _
        refine ⟨hfiled, fun row h => ?_, fun h => (nomatch hrow.symm.trans h), fun row h e => ?_⟩
        · cases hrow.symm.trans h
          exact hnodup
        · cases hrow.symm.trans h
          rw [hstep]
          exact partOf_updateLoop (hr.filed s.uuid prev hprev) ho.1 (hr.entries_some prev hprev e)
            (fun hnot => not_or.mp (mt (ho.2 e).mpr hnot)) _ _

/-- A creation stopped anywhere: the row is there already, with the calls that are missing. -/
theorem recoverable_stopped_register (hc : Consistent h) {s : Subscription}
    (hnew : h.subscriptionCallbacks s.uuid = none) (hn : s.events.Nodup) (m : ℕ) :
    (stopped (h.registerStart master s) m).Recoverable s.uuid := by
  have htake : ((h.registerStart master s).2.take m) =
      (registerCalls (newRow master h s).fn (buildHeaders master s) (s.events.take m)).map
        .bus := by
    change (((registerCalls (newRow master h s).fn (buildHeaders master s) s.events).map
      Action.bus).take m) = _
    rw [← List.map_take, registerCalls, ← List.map_take, ← registerCalls]
  have hstopped : stopped (h.registerStart master s) m =
      ⟨Function.update h.subscriptionCallbacks s.uuid (some (newRow master h s)),
        (registerCalls (newRow master h s).fn (buildHeaders master s) (s.events.take m)).foldl
          Consumer.call h.busConsumer, h.nextId + 1⟩ := by
    rw [stopped, htake, foldl_act_bus]
    rfl
  have hrow : (stopped (h.registerStart master s) m).subscriptionCallbacks s.uuid =
      some (newRow master h s) := by
    rw [hstopped]
    exact Function.update_self _ _ _
  have hfiled : h.Filed := fun _ _ hrow => hc.uuid_eq hrow
  have hstart : h.start master (.created s) = .ok (h.registerStart master s) := rfl
  obtain ⟨habout, hfiled', -⟩ := start_about hfiled hstart
  refine ⟨filed_foldl_act (fun a ha => habout a (List.mem_of_mem_take ha)) hfiled',
    fun row h => ?_, fun h => absurd (hrow.symm.trans h) (Option.some_ne_none _),
    fun row h' e => ?_⟩
  · cases hrow.symm.trans h
    exact hn
  · cases hrow.symm.trans h'
    have hempty : h.busConsumer.ofSubscription s.uuid e = [] := hc.entries_none hnew e
    rw [hstopped]
    change PartOf _ _ (((registerCalls _ _ _).foldl Consumer.call _).ofSubscription _ _)
    rw [ofSubscription_registerCalls _ _ (hn.sublist (List.take_sublist m s.events)), hempty,
      List.nil_append]
    split_ifs with hmem
    · exact .inr ⟨_, (if_pos (List.mem_of_mem_take hmem.1)).symm⟩
    · exact .inl rfl

end Frame
end SubscriptionBusEventHandler

/-- The call at which a loop over events is stopped: the turns before it are done, and of the
turn of `event` the calls before `call`, which raises with its effect or without. -/
structure FailurePoint where
  before : List String
  event : String
  after : List String
  call : ℕ
  applied : Bool

namespace FailurePoint

def order (f : FailurePoint) : List String := f.before ++ f.event :: f.after

def effective (f : FailurePoint) : ℕ := f.call + f.applied.toNat

/-- Of a subscription whose update stops here nothing is left: the update drops the events that
come before and adds those that come after; the event itself is added and has had no call, or it
has had its unsubscription alone. -/
structure Clears (master : String) (s : Subscription) (prev : CallbackRow) (f : FailurePoint) :
    Prop where
  before : ∀ e ∈ f.before, e ∉ s.events
  after : ∀ e ∈ f.after, e ∉ prev.events
  event : (f.effective = 0 ∧ f.event ∉ prev.events) ∨
    (f.effective = 1 ∧ f.event ∈ prev.events ∧
      (f.event ∈ s.events → loopHeaders f.order f.event (buildHeaders master s) = prev.headers))

end FailurePoint

section Stopped
variable {s : Subscription} {fn : Callback} {prev : CallbackRow}

theorem updateLoop_append (before rest : List String) (headers : Headers) :
    updateLoop s fn prev (before ++ rest) headers =
      ((updateLoop s fn prev before headers).1 ++
        (updateLoop s fn prev rest (updateLoop s fn prev before headers).2).1,
        (updateLoop s fn prev rest (updateLoop s fn prev before headers).2).2) := by
  induction before generalizing headers with
  | nil => rfl
  | cons event before ih =>
    simp only [List.cons_append, updateLoop, ih, List.append_assoc]

theorem headers_updateLoop (before after : List String) {event : String}
    (hn : event ∉ before) (headers : Headers) :
    handleTenantEvents event (updateLoop s fn prev before headers).2 =
      loopHeaders (before ++ event :: after) event headers := by
  induction before generalizing headers with
  | nil => exact (loopHeaders_cons_self after event headers).symm
  | cons e before ih =>
    obtain ⟨hne, hn'⟩ := not_or.mp (mt List.mem_cons.mpr hn)
    rw [List.cons_append, loopHeaders_cons_of_ne hne, updateLoop, ih hn']

/-- A turn stopped after `d` calls leaves nothing under its event in two cases. -/
theorem ofSubscription_take_updateTurn {event : String} {headers : Headers}
    (hu : prev.fn.uuid = fn.uuid) {c : Consumer Callback} {b : Binding}
    (hc : c.ofSubscription fn.uuid event = rowEntries prev event b)
    (hmem : event ∈ s.events ∨ event ∈ prev.events) {d : ℕ}
    (hd : d ≤ (updateTurn s fn prev event headers).length) :
    (((updateTurn s fn prev event headers).take d).foldl Consumer.call c).ofSubscription fn.uuid
        event = [] ↔
      (d = 0 ∧ event ∉ prev.events) ∨
        (d = 1 ∧ event ∈ prev.events ∧ (event ∈ s.events → headers = prev.headers)) := by
  unfold rowEntries at hc
  by_cases hs : event ∈ s.events
  · by_cases hp : event ∈ prev.events
    · by_cases hh : headers = prev.headers
      · rw [updateTurn_kept hs hp hh] at hd ⊢
        have hcases : d = 0 ∨ d = 1 ∨ d = 2 := by simp at hd; omega
        rcases hcases with rfl | rfl | rfl <;>
          simp [Consumer.call, Consumer.ofSubscription_subscribe,
            Consumer.ofSubscription_unsubscribe, hc, hp, hh, hu]
      · rw [updateTurn_changed hs hp hh] at hd ⊢
        have hcases : d = 0 ∨ d = 1 ∨ d = 2 := by simp at hd; omega
        rcases hcases with rfl | rfl | rfl <;>
          simp [Consumer.call, Consumer.ofSubscription_subscribe,
            Consumer.ofSubscription_unsubscribe, hc, hs, hp, hh, hu]
    · rw [updateTurn_added hs hp] at hd ⊢
      have hcases : d = 0 ∨ d = 1 := by simp at hd; omega
      rcases hcases with rfl | rfl <;>
        simp [Consumer.call, Consumer.ofSubscription_subscribe, hc, hp]
  · have hp : event ∈ prev.events := hmem.resolve_left hs
    rw [updateTurn_removed hs] at hd ⊢
    have hcases : d = 0 ∨ d = 1 := by simp at hd; omega
    rcases hcases with rfl | rfl <;>
      simp [Consumer.call, Consumer.ofSubscription_unsubscribe, hc, hs, hp, hu]

def FailurePoint.calls (f : FailurePoint) (master : String) (s : Subscription) (fn : Callback)
    (prev : CallbackRow) : List BusCall :=
  (updateLoop s fn prev f.before (buildHeaders master s)).1 ++
    (updateTurn s fn prev f.event (loopHeaders f.order f.event (buildHeaders master s))).take
      f.effective

def FailurePoint.Raises (f : FailurePoint) (master : String) (s : Subscription) (fn : Callback)
    (prev : CallbackRow) : Prop :=
  f.call <
    (updateTurn s fn prev f.event (loopHeaders f.order f.event (buildHeaders master s))).length

instance (f : FailurePoint) (master : String) (s : Subscription) (fn : Callback)
    (prev : CallbackRow) : Decidable (f.Raises master s fn prev) :=
  inferInstanceAs (Decidable (_ < _))

theorem FailurePoint.Raises.effective_le {f : FailurePoint} {master : String}
    (hf : f.Raises master s fn prev) : f.effective ≤
      (updateTurn s fn prev f.event (loopHeaders f.order f.event (buildHeaders master s))).length :=
  (Nat.add_le_add_left (Bool.toNat_le f.applied) f.call).trans hf

theorem FailurePoint.calls_prefix {f : FailurePoint} (hn : f.event ∉ f.before) (master : String)
    (s : Subscription) (fn : Callback) (prev : CallbackRow) :
    f.calls master s fn prev <+: (updateLoop s fn prev f.order (buildHeaders master s)).1 := by
  have horder : f.order = f.before ++ f.event :: f.after := rfl
  have hheaders : handleTenantEvents f.event
      (updateLoop s fn prev f.before (buildHeaders master s)).2 =
        loopHeaders f.order f.event (buildHeaders master s) :=
    headers_updateLoop f.before f.after hn _
  rw [horder, updateLoop_append]
  refine (List.prefix_append_right_inj _).mpr ?_
  unfold updateLoop
  rw [hheaders]
  exact (List.take_prefix _ _).trans (List.prefix_append _ _)

variable {master : String} {h : SubscriptionBusEventHandler}

theorem stopped_updateStart (hr : h.subscriptionCallbacks s.uuid = some prev) {f : FailurePoint}
    (hn : f.event ∉ f.before) {p : SubscriptionBusEventHandler × List Action}
    (hs : h.start master (.updated s f.order) = .ok p) :
    stopped p (f.calls master s (newFn h s) prev).length =
      ⟨Function.update h.subscriptionCallbacks s.uuid none,
        (f.calls master s (newFn h s) prev).foldl Consumer.call h.busConsumer, h.nextId + 1⟩ := by
  simp only [SubscriptionBusEventHandler.start, updateStart, hr, Except.ok.injEq] at hs
  subst hs
  obtain ⟨rest, hrest⟩ := f.calls_prefix hn master s (newFn h s) prev
  rw [stopped]
  dsimp only
  rw [newFn] at hrest
  rw [← hrest, List.map_append, List.append_assoc, List.take_append_of_le_length (by simp [newFn]),
    List.take_of_length_le (by simp [newFn]), foldl_act_bus]
  rfl

theorem ofSubscription_calls {f : FailurePoint} (hn : f.order.Nodup) (hu : prev.fn.uuid = fn.uuid)
    (hf : f.Raises master s fn prev) (hmem : f.event ∈ s.events ∨ f.event ∈ prev.events)
    {e : String} {b : Binding} {c : Consumer Callback}
    (hc : c.ofSubscription fn.uuid e = rowEntries prev e b) :
    ((f.calls master s fn prev).foldl Consumer.call c).ofSubscription fn.uuid e = [] ↔
      if e ∈ f.before then e ∉ s.events
      else if e = f.event then (f.effective = 0 ∧ f.event ∉ prev.events) ∨
        (f.effective = 1 ∧ f.event ∈ prev.events ∧ (f.event ∈ s.events →
          loopHeaders f.order f.event (buildHeaders master s) = prev.headers))
      else e ∉ prev.events := by
  obtain ⟨hbefore, -, hdisjoint⟩ := List.nodup_append.mp hn
  have hevent : f.event ∉ f.before := fun h => hdisjoint _ h _ List.mem_cons_self rfl
  have hturn : e ≠ f.event → ∀ call ∈ (updateTurn s fn prev f.event
      (loopHeaders f.order f.event (buildHeaders master s))).take f.effective,
      e ≠ call.event ∨ fn.uuid ≠ call.fn.uuid := by
    intro he call hcall
    have hcallEvent := event_of_mem_updateTurn (List.mem_of_mem_take hcall)
    exact .inl (hcallEvent ▸ he)
  rw [FailurePoint.calls, List.foldl_append]
  split_ifs with hin hev
  · have hne : e ≠ f.event := fun h => hevent (h ▸ hin)
    rw [ofSubscription_foldl_of_ne _ (hturn hne), ofSubscription_updateLoop hu hbefore hin hc]
    simp
  · subst hev
    rw [← ofSubscription_updateLoop_of_notMem hin (buildHeaders master s)] at hc
    exact ofSubscription_take_updateTurn hu hc hmem hf.effective_le
  · rw [ofSubscription_foldl_of_ne _ (hturn hev), ofSubscription_updateLoop_of_notMem hin, hc]
    simp [rowEntries]

theorem entries_stopped_update (hc : Consistent h) (hr : h.subscriptionCallbacks s.uuid = some prev)
    {f : FailurePoint} (ho : IsIteration f.order s.events prev.events)
    (hf : f.Raises master s (newFn h s) prev)
    {p : SubscriptionBusEventHandler × List Action}
    (hs : h.start master (.updated s f.order) = .ok p) :
    (∀ e, (stopped p (f.calls master s (newFn h s) prev).length).entries s.uuid e = []) ↔
      f.Clears master s prev := by
  obtain ⟨-, htail, hdisjoint⟩ := List.nodup_append.mp ho.1
  obtain ⟨hafter, -⟩ := List.nodup_cons.mp htail
  have hevent : f.event ∉ f.before := fun h => hdisjoint _ h _ List.mem_cons_self rfl
  have hmem : f.event ∈ s.events ∨ f.event ∈ prev.events :=
    (ho.2 f.event).mp (List.mem_append_right _ List.mem_cons_self)
  have hleft : ∀ e, (stopped p (f.calls master s (newFn h s) prev).length).entries s.uuid e = [] ↔
      if e ∈ f.before then e ∉ s.events
      else if e = f.event then (f.effective = 0 ∧ f.event ∉ prev.events) ∨
        (f.effective = 1 ∧ f.event ∈ prev.events ∧ (f.event ∈ s.events →
          loopHeaders f.order f.event (buildHeaders master s) = prev.headers))
      else e ∉ prev.events := by
    intro e
    obtain ⟨b, hb⟩ := hc.entries_some hr e
    have hown : h.busConsumer.ofSubscription (newFn h s).uuid e = rowEntries prev e b := hb
    have hprev : prev.fn.uuid = s.uuid := hc.uuid_eq hr
    rw [stopped_updateStart hr hevent hs]
    exact ofSubscription_calls ho.1 hprev hf hmem hown
  simp only [hleft]
  constructor
  · intro h
    refine ⟨fun e he => ?_, fun e he => ?_, ?_⟩
    · have hthis := h e
      rwa [if_pos he] at hthis
    · have hthis := h e
      have hnot : e ∉ f.before :=
        fun hin => hdisjoint e hin e (List.mem_cons_of_mem _ he) rfl
      have hne : e ≠ f.event := fun heq => hafter (heq ▸ he)
      rwa [if_neg hnot, if_neg hne] at hthis
    · have hthis := h f.event
      rwa [if_neg hevent, if_pos rfl] at hthis
  · rintro ⟨hbefore, hrest, hturn⟩ e
    split_ifs with hin hev
    · exact hbefore e hin
    · exact hturn
    · intro hprev
      rcases List.mem_append.mp ((ho.2 e).mpr (.inr hprev)) with hin' | htl
      · exact hin hin'
      · exact hrest e ((List.mem_cons.mp htl).resolve_left hev) hprev

end Stopped

section Later
variable {master uuid : String} {h : SubscriptionBusEventHandler} {later : List Notification}

theorem entries_of_recoverable (hr : h.Recoverable uuid)
    (hlater : Run.Along (receive master) (Follows uuid) h later) {s : Subscription}
    (hs : s.uuid = uuid) (e : String) : (h.afterDeletion master later s).entries uuid e = [] := by
  have hstep : ∀ h n, h.Recoverable uuid → Follows uuid h n → (h.receive master n).Recoverable
      uuid := fun h n hr hn => hr.receive hn
  have hend := Run.always_of_along hstep (fun h hr => hr) hr hlater later (List.prefix_refl later)
  rw [afterDeletion, List.foldl_append]
  exact (hend.deleted hs).2 e

theorem entries_of_unregistered (hf : h.Filed) (hnone : h.subscriptionCallbacks uuid = none)
    (hlater : Run.Along (receive master) (Follows uuid) h later) (s : Subscription)
    (hs : s.uuid = uuid) (e : String) :
    (h.afterDeletion master later s).entries uuid e = h.entries uuid e := by
  have hstep : ∀ h' n, (h'.Filed ∧ h'.subscriptionCallbacks uuid = none ∧
      ∀ e, h'.entries uuid e = h.entries uuid e) → Follows uuid h' n →
      ((h'.receive master n).Filed ∧ (h'.receive master n).subscriptionCallbacks uuid = none ∧
        ∀ e, (h'.receive master n).entries uuid e = h.entries uuid e) := by
    rintro h' n ⟨hf', hnone', hsame⟩ hn
    obtain ⟨hfiled, hother⟩ := receive_of_ne master hf' n
    by_cases hne : uuid ≠ n.uuid
    · obtain ⟨hrow, hentries⟩ := hother uuid hne
      exact ⟨hfiled, hrow.trans hnone', fun e => (hentries e).trans (hsame e)⟩
    · have huuid : n.uuid = uuid := (not_not.mp hne).symm
      have hkept : h'.receive master n = h' := by
        subst huuid
        cases n with
        | created t => exact absurd rfl hn
        | updated t order => simp only [receive, handle, update_of_none hnone']
        | deleted t => simp only [receive, handle, unregister_of_none hnone']
      rw [hkept]
      exact ⟨hf', hnone', hsame⟩
  have hlast : Follows uuid (later.foldl (receive master) h) (.deleted s) := trivial
  have hend := Run.always_of_along hstep (fun _ hJ => hJ) ⟨hf, hnone, fun e => rfl⟩ hlater later
    (List.prefix_refl later)
  rw [afterDeletion, List.foldl_append]
  exact (hstep _ (.deleted s) hend hlast).2.2 e

end Later

/-- After a deletion nothing is left of a subscription whose creation was stopped by a failing
call; of one whose update was, if and only if the update had cleared it when it stopped. -/
theorem failing_call_recovered_iff (master : String) {h : SubscriptionBusEventHandler}
    (hc : Consistent h) :
    (∀ s, h.subscriptionCallbacks s.uuid = none → s.events.Nodup →
      ∀ p, h.start master (.created s) = .ok p →
      ∀ call < s.events.length, ∀ applied : Bool, ∀ later, ∀ s' : Subscription, s'.uuid = s.uuid →
      Run.Along (receive master) (Follows s.uuid) (stopped p (call + applied.toNat)) later →
      ∀ e, ((stopped p (call + applied.toNat)).afterDeletion master later s').entries s.uuid e =
        []) ∧
    ∀ s prev, h.subscriptionCallbacks s.uuid = some prev →
      ∀ f : FailurePoint, IsIteration f.order s.events prev.events →
      f.Raises master s (newFn h s) prev →
      ∀ p, h.start master (.updated s f.order) = .ok p →
      ∀ later, ∀ s' : Subscription, s'.uuid = s.uuid →
      Run.Along (receive master) (Follows s.uuid)
        (stopped p (f.calls master s (newFn h s) prev).length) later →
      ((∀ e, ((stopped p (f.calls master s (newFn h s) prev).length).afterDeletion master later
          s').entries s.uuid e = []) ↔
        f.Clears master s prev) := by
  constructor
  · rintro s hnew hn p ⟨⟩ call - applied later s' hs' hlater e
    exact entries_of_recoverable (recoverable_stopped_register hc hnew hn _) hlater hs' e
  · intro s prev hr f ho hf p hp later s' hs' hlater
    have hfiled : h.Filed := fun _ _ hrow => hc.uuid_eq hrow
    obtain ⟨habout, hfiled', -⟩ := start_about hfiled hp
    have hevent : f.event ∉ f.before := by
      have hmid := (List.nodup_append.mp ho.1).2.2
      exact fun h => hmid _ h _ List.mem_cons_self rfl
    have hnone : (stopped p (f.calls master s (newFn h s) prev).length).subscriptionCallbacks
        s.uuid = none := by
      rw [stopped_updateStart hr hevent hp]
      exact Function.update_self _ _ _
    have hstopped : (stopped p (f.calls master s (newFn h s) prev).length).Filed :=
      filed_foldl_act (fun a ha => habout a (List.mem_of_mem_take ha)) hfiled'
    rw [← entries_stopped_update hc hr ho hf hp]
    exact forall_congr' fun e => by
      rw [entries_of_unregistered hstopped hnone hlater s' hs' e]

def twoEventSubscription : Subscription :=
  { Subscription.blank "subscription" "tenant" with
    eventsRel := [⟨"call_answered"⟩, ⟨"call_ended"⟩] }

def twoEventHandler : SubscriptionBusEventHandler :=
  (init "headers").register "master" twoEventSubscription

theorem consistent_twoEventHandler : Consistent twoEventHandler :=
  (consistent_init "headers").register "master" (fun _ => rfl) (by decide)

/-- A creation stopped at its second call, and an update that drops both events, stopped by the
second unsubscription after its effect. -/
theorem failing_call_recovered_iff_dropped :
    let s := twoEventSubscription
    let dropped := { s with eventsRel := [] }
    let created := stopped ((init "headers").registerStart "master" s) 1
    let f : FailurePoint := ⟨["call_answered"], "call_ended", [], 0, true⟩
    (∀ e, (created.afterDeletion "master" [.updated s s.events] s).entries s.uuid e = []) ∧
      ∃ p, twoEventHandler.start "master" (.updated dropped f.order) = .ok p ∧
        ∀ e, ((stopped p 2).afterDeletion "master" [.updated s s.events] s).entries s.uuid e =
          [] := by
  intro s dropped created f
  have hfollows : ∀ h : SubscriptionBusEventHandler,
      (∀ row, h.subscriptionCallbacks s.uuid = some row → row.events = s.events) →
      Run.Along (receive "master") (Follows s.uuid) h [.updated s s.events] := by
    intro h hrow
    refine ⟨fun _ => ⟨by decide, fun row hr => ?_⟩, trivial⟩
    rw [hrow row hr]
    decide
  constructor
  · refine (failing_call_recovered_iff "master" (consistent_init "headers")).1 s rfl (by decide) _
      rfl 1 (by decide) false _ s rfl (hfollows _ ?_)
    rintro row ⟨⟩
    rfl
  · refine ⟨_, rfl, ?_⟩
    refine ((failing_call_recovered_iff "master" consistent_twoEventHandler).2 dropped _ rfl f
      (by decide) (by decide) _ rfl _ s rfl (hfollows _ ?_)).mpr ?_
    · exact fun row hr => nomatch hr
    · exact ⟨by decide, by decide, by decide⟩

/-- An update that keeps both events, stopped by its second call: what the other event had is
never removed. -/
theorem failing_call_orphans :
    let s := twoEventSubscription
    let f : FailurePoint := ⟨[], "call_answered", ["call_ended"], 1, false⟩
    f.Raises "master" s (newFn twoEventHandler s) (newRow "master" (init "headers") s) ∧
      ∃ p, twoEventHandler.start "master" (.updated s f.order) = .ok p ∧
        ¬ ∀ e, ((stopped p 1).afterDeletion "master" [] s).entries s.uuid e = [] := by
  intro s f
  refine ⟨by decide, _, rfl, fun h => ?_⟩
  exact absurd (h "call_ended") (by decide)

end WazoWebhookd

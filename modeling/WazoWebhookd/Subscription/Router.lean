import WazoWebhookd.Subscription.BusCalls

/-! The three methods of the router, each run without interruption: what they do to the
registry and to the entries of every subscription. -/
namespace WazoWebhookd
namespace SubscriptionBusEventHandler

variable {master : String} {h : SubscriptionBusEventHandler} {s : Subscription}

def entries (h : SubscriptionBusEventHandler) (uuid event : String) : List (Entry Callback) :=
  h.busConsumer.ofSubscription uuid event

theorem foldl_act_bus (calls : List BusCall) (h : SubscriptionBusEventHandler) :
    (calls.map Action.bus).foldl act h =
      { h with busConsumer := calls.foldl Consumer.call h.busConsumer } := by
  induction calls generalizing h with
  | nil => rfl
  | cons call calls ih =>
    rw [List.map_cons, List.foldl_cons, ih]
    rfl

def newRow (master : String) (h : SubscriptionBusEventHandler) (s : Subscription) : CallbackRow :=
  ⟨⟨h.nextId, dump s⟩, s.events, buildHeaders master s⟩

theorem register_eq (master : String) (h : SubscriptionBusEventHandler) (s : Subscription) :
    h.register master s =
      ⟨Function.update h.subscriptionCallbacks s.uuid (some (newRow master h s)),
        (registerCalls (newRow master h s).fn (buildHeaders master s) s.events).foldl
          Consumer.call h.busConsumer, h.nextId + 1⟩ := by
  unfold register finish registerStart
  dsimp only
  rw [foldl_act_bus]
  rfl

theorem entries_register (hn : s.events.Nodup) (uuid e : String) :
    (h.register master s).entries uuid e = h.entries uuid e ++
      if e ∈ s.events ∧ uuid = s.uuid then
        [⟨(newRow master h s).fn, bindingOf e (handleTenantEvents e (buildHeaders master s))⟩]
      else [] := by
  rw [register_eq]
  exact ofSubscription_registerCalls _ _ hn _ _ _

theorem unregister_of_none (hr : h.subscriptionCallbacks s.uuid = none) : h.unregister s = h := by
  unfold unregister unregisterStart finish
  rw [hr]
  rfl

theorem unregister_of_some {row : CallbackRow} (hr : h.subscriptionCallbacks s.uuid = some row) :
    h.unregister s =
      ⟨Function.update h.subscriptionCallbacks s.uuid none,
        (unregisterCalls row.fn row.events).foldl Consumer.call h.busConsumer, h.nextId⟩ := by
  unfold unregister unregisterStart finish
  rw [hr]
  dsimp only
  rw [foldl_act_bus]

theorem entries_unregister {row : CallbackRow} (hr : h.subscriptionCallbacks s.uuid = some row)
    (hu : row.fn.uuid = s.uuid) (hn : row.events.Nodup) (uuid e : String) :
    (h.unregister s).entries uuid e =
      if e ∈ row.events ∧ uuid = s.uuid
      then (h.entries uuid e).eraseP fun entry => entry.handler = row.fn
      else h.entries uuid e := by
  rw [unregister_of_some hr, ← hu]
  exact ofSubscription_unregisterCalls _ hn _ _ _

theorem update_of_none (hr : h.subscriptionCallbacks s.uuid = none) (order : List String) :
    h.update master s order = .error .keyError := by
  unfold update updateStart
  rw [hr]
  rfl

def newFn (h : SubscriptionBusEventHandler) (s : Subscription) : Callback := ⟨h.nextId, dump s⟩

theorem update_of_some {prev : CallbackRow} (hr : h.subscriptionCallbacks s.uuid = some prev)
    (order : List String) :
    let loop := updateLoop s (newFn h s) prev order (buildHeaders master s)
    h.update master s order =
      .ok ⟨Function.update h.subscriptionCallbacks s.uuid
          (some ⟨newFn h s, s.events, loop.2⟩),
        loop.1.foldl Consumer.call h.busConsumer, h.nextId + 1⟩ := by
  intro loop
  unfold update updateStart
  rw [hr]
  simp only [Except.map, finish, List.foldl_append, foldl_act_bus, List.foldl_cons,
    List.foldl_nil, act, Function.update_idem]
  rfl

end SubscriptionBusEventHandler

open SubscriptionBusEventHandler

/-- The registry and the consumer's table agree: a registered subscription has one entry,
with the registered callback, under each registered event, and there is no other entry. -/
structure Consistent (h : SubscriptionBusEventHandler) : Prop where
  uuid_eq : ∀ {uuid row}, h.subscriptionCallbacks uuid = some row → row.fn.uuid = uuid
  nodup : ∀ {uuid row}, h.subscriptionCallbacks uuid = some row → row.events.Nodup
  entries_none : ∀ {uuid}, h.subscriptionCallbacks uuid = none → ∀ e, h.entries uuid e = []
  entries_some : ∀ {uuid row}, h.subscriptionCallbacks uuid = some row →
    ∀ e, ∃ b, h.entries uuid e = rowEntries row e b

theorem consistent_init (exchangeType : String) : Consistent (init exchangeType) where
  uuid_eq h := by cases h
  nodup h := by cases h
  entries_none _ _ := rfl
  entries_some h := by cases h

section Preservation
variable (master : String) {h : SubscriptionBusEventHandler} {s : Subscription}

theorem entries_register_of_nil {e : String} (hr : h.entries s.uuid e = [])
    (hn : s.events.Nodup) :
    (h.register master s).entries s.uuid e =
      rowEntries (newRow master h s) e
        (bindingOf e (handleTenantEvents e (buildHeaders master s))) := by
  rw [SubscriptionBusEventHandler.entries_register hn, hr]
  by_cases he : e ∈ s.events <;> simp [rowEntries, newRow, he]

theorem entries_register_of_ne (hn : s.events.Nodup) {uuid : String} (hu : uuid ≠ s.uuid)
    (e : String) : (h.register master s).entries uuid e = h.entries uuid e := by
  rw [SubscriptionBusEventHandler.entries_register hn, if_neg fun ha => hu ha.2, List.append_nil]

theorem register_subscriptionCallbacks (h : SubscriptionBusEventHandler) (s : Subscription)
    (uuid : String) :
    (h.register master s).subscriptionCallbacks uuid =
      if uuid = s.uuid then some (newRow master h s) else h.subscriptionCallbacks uuid := by
  rw [register_eq]
  exact Function.update_apply _ _ _ _

theorem Consistent.register (hc : Consistent h) (hr : ∀ e, h.entries s.uuid e = [])
    (hn : s.events.Nodup) : Consistent (h.register master s) where
  uuid_eq {uuid row} hrow := by
    rw [register_subscriptionCallbacks master] at hrow
    split_ifs at hrow with hu
    · cases hrow
      exact hu.symm
    · exact hc.uuid_eq hrow
  nodup {uuid row} hrow := by
    rw [register_subscriptionCallbacks master] at hrow
    split_ifs at hrow with hu
    · cases hrow
      exact hn
    · exact hc.nodup hrow
  entries_none {uuid} hrow e := by
    rw [register_subscriptionCallbacks master] at hrow
    split_ifs at hrow with hu
    rw [entries_register_of_ne master hn hu, hc.entries_none hrow]
  entries_some {uuid row} hrow e := by
    rw [register_subscriptionCallbacks master] at hrow
    split_ifs at hrow with hu
    · cases hrow
      subst hu
      exact ⟨_, entries_register_of_nil master (hr e) hn⟩
    · rw [entries_register_of_ne master hn hu]
      exact hc.entries_some hrow e

/-- A second registration leaves two entries under an event of both. -/
theorem Consistent.not_register_again (hc : Consistent h) {row : CallbackRow}
    (hr : h.subscriptionCallbacks s.uuid = some row) (hn : s.events.Nodup) {e : String}
    (he : e ∈ s.events) (hrow : e ∈ row.events) : ¬ Consistent (h.register master s) := by
  intro hc'
  have hnew := (register_subscriptionCallbacks master h s s.uuid).trans (if_pos rfl)
  obtain ⟨b, hb⟩ := hc.entries_some hr e
  obtain ⟨b', hb'⟩ := hc'.entries_some hnew e
  have hlen := congrArg List.length hb'
  rw [SubscriptionBusEventHandler.entries_register hn, hb] at hlen
  simp [rowEntries, newRow, he, hrow] at hlen

theorem unregister_subscriptionCallbacks (h : SubscriptionBusEventHandler) (s : Subscription)
    (uuid : String) :
    (h.unregister s).subscriptionCallbacks uuid =
      if uuid = s.uuid then none else h.subscriptionCallbacks uuid := by
  cases hr : h.subscriptionCallbacks s.uuid with
  | none =>
    rw [unregister_of_none hr]
    split_ifs with hu
    · rw [hu, hr]
    · rfl
  | some row =>
    rw [unregister_of_some hr]
    exact Function.update_apply _ _ _ _

theorem entries_unregister_of_ne (hc : Consistent h) {uuid : String} (hu : uuid ≠ s.uuid)
    (e : String) : (h.unregister s).entries uuid e = h.entries uuid e := by
  cases hr : h.subscriptionCallbacks s.uuid with
  | none => rw [unregister_of_none hr]
  | some row =>
    rw [entries_unregister hr (hc.uuid_eq hr) (hc.nodup hr), if_neg fun ha => hu ha.2]

/-- Nothing of an unregistered subscription is left in the table. -/
theorem Consistent.entries_unregister (hc : Consistent h) (e : String) :
    (h.unregister s).entries s.uuid e = [] := by
  cases hr : h.subscriptionCallbacks s.uuid with
  | none =>
    rw [unregister_of_none hr]
    exact hc.entries_none hr e
  | some row =>
    obtain ⟨b, hb⟩ := hc.entries_some hr e
    rw [SubscriptionBusEventHandler.entries_unregister hr (hc.uuid_eq hr) (hc.nodup hr), hb]
    by_cases he : e ∈ row.events <;> simp [rowEntries, he]

theorem Consistent.unregister (hc : Consistent h) : Consistent (h.unregister s) where
  uuid_eq {uuid row} hrow := by
    rw [unregister_subscriptionCallbacks] at hrow
    split_ifs at hrow
    exact hc.uuid_eq hrow
  nodup {uuid row} hrow := by
    rw [unregister_subscriptionCallbacks] at hrow
    split_ifs at hrow
    exact hc.nodup hrow
  entries_none {uuid} hrow e := by
    by_cases hu : uuid = s.uuid
    · rw [hu, hc.entries_unregister]
    · rw [unregister_subscriptionCallbacks, if_neg hu] at hrow
      rw [entries_unregister_of_ne hc hu, hc.entries_none hrow]
  entries_some {uuid row} hrow e := by
    rw [unregister_subscriptionCallbacks] at hrow
    split_ifs at hrow with hu
    rw [entries_unregister_of_ne hc hu]
    exact hc.entries_some hrow e

/-- What a successful update leaves in the registry and in the table. -/
theorem Consistent.update_spec (hc : Consistent h) {prev : CallbackRow}
    (hr : h.subscriptionCallbacks s.uuid = some prev) {order : List String}
    (ho : IsIteration order s.events prev.events) :
    ∃ h' headers, h.update master s order = .ok h' ∧ h'.nextId = h.nextId + 1 ∧
      h'.busConsumer = (updateLoop s (newFn h s) prev order (buildHeaders master s)).1.foldl
        Consumer.call h.busConsumer ∧
      h'.subscriptionCallbacks =
        Function.update h.subscriptionCallbacks s.uuid (some ⟨newFn h s, s.events, headers⟩) ∧
      (∀ uuid ≠ s.uuid, ∀ e, h'.entries uuid e = h.entries uuid e) ∧
      ∀ e, h'.entries s.uuid e = rowEntries ⟨newFn h s, s.events, headers⟩ e
        (bindingOf e (loopHeaders order e (buildHeaders master s))) := by
  have hu : prev.fn.uuid = s.uuid := hc.uuid_eq hr
  refine ⟨_, _, update_of_some hr order, rfl, rfl, rfl, ?_, ?_⟩
  · intro uuid hne e
    apply ofSubscription_foldl_of_ne
    intro call hcall
    right
    rw [uuid_of_mem_updateLoop hu hcall]
    exact hne
  · intro e
    obtain ⟨b, hb⟩ := hc.entries_some hr e
    by_cases he : e ∈ order
    · have hown : h.busConsumer.ofSubscription (newFn h s).uuid e = rowEntries prev e b := hb
      exact ofSubscription_updateLoop hu ho.1 he hown _
    · have hnot : ¬ (e ∈ s.events ∨ e ∈ prev.events) := mt (ho.2 e).mpr he
      have hempty : rowEntries prev e b = [] := if_neg fun h => hnot (Or.inr h)
      refine (ofSubscription_updateLoop_of_notMem he _ _ _).trans ?_
      change h.entries s.uuid e = _
      rw [hb, hempty, rowEntries, if_neg fun h => hnot (Or.inl h)]

theorem Consistent.update (hc : Consistent h) {prev : CallbackRow}
    (hr : h.subscriptionCallbacks s.uuid = some prev) {order : List String}
    (ho : IsIteration order s.events prev.events) (hn : s.events.Nodup)
    {h' : SubscriptionBusEventHandler} (hh : h.update master s order = .ok h') :
    Consistent h' := by
  obtain ⟨h₁, headers, hok, -, -, hcb, hother, hown⟩ := hc.update_spec master hr ho
  obtain rfl : h₁ = h' := by simpa using hok.symm.trans hh
  constructor
  · intro uuid row hrow
    rw [hcb, Function.update_apply] at hrow
    split_ifs at hrow with hu
    · cases hrow
      exact hu.symm
    · exact hc.uuid_eq hrow
  · intro uuid row hrow
    rw [hcb, Function.update_apply] at hrow
    split_ifs at hrow with hu
    · cases hrow
      exact hn
    · exact hc.nodup hrow
  · intro uuid hrow e
    rw [hcb, Function.update_apply] at hrow
    split_ifs at hrow with hu
    rw [hother uuid hu, hc.entries_none hrow]
  · intro uuid row hrow e
    rw [hcb, Function.update_apply] at hrow
    split_ifs at hrow with hu
    · cases hrow
      subst hu
      exact ⟨_, hown e⟩
    · rw [hother uuid hu]
      exact hc.entries_some hrow e

end Preservation

end WazoWebhookd

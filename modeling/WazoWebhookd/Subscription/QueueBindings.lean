import WazoWebhookd.Subscription.FreshRegistration

/-! The bindings the broker holds for the shared queue: which handler entries keep theirs
over a history of notifications. -/
namespace WazoWebhookd
open KeyedList SubscriptionBusEventHandler

/-- A binding names the event and the subscription of its entry. -/
def Binding.Tagged (b : Binding) (uuid e : String) : Prop :=
  b.arguments.lookup "name" = some (.str e) ∧
    b.arguments.lookup "x-subscription" = some (.str uuid)

theorem Binding.Tagged.unique {b : Binding} {uuid e uuid' e' : String} (h : b.Tagged uuid e)
    (h' : b.Tagged uuid' e') : uuid = uuid' ∧ e = e' := by
  have he := h.1.symm.trans h'.1
  have hu := h.2.symm.trans h'.2
  simp only [Option.some.injEq, HeaderValue.str.injEq] at he hu
  exact ⟨hu, he⟩

theorem bindingOf_tagged {headers : Headers} {uuid : String}
    (h : headers.lookup "x-subscription" = some (.str uuid)) (e : String) :
    (bindingOf e headers).Tagged uuid e := by
  constructor
  · exact Finmap.lookup_insert _
  · have hne : "x-subscription" ≠ "name" := by decide
    exact (Finmap.lookup_insert_of_ne _ hne).trans h

/-- Every entry has a binding that names its event and its subscription. -/
def Consumer.Tagged (c : Consumer Callback) : Prop :=
  ∀ e, ∀ entry ∈ c.subscriptions e, entry.binding.Tagged entry.handler.uuid e

def BusCall.Tagged : BusCall → Prop
  | .subscribe _ fn headers => headers.lookup "x-subscription" = some (.str fn.uuid)
  | .unsubscribe _ _ => True

theorem Consumer.Tagged.call {c : Consumer Callback} (hc : c.Tagged) {call : BusCall}
    (hcall : call.Tagged) : (c.call call).Tagged := by
  intro e entry hentry
  cases call with
  | subscribe event fn headers =>
    rw [Consumer.call, subscribe_subscriptions] at hentry
    split_ifs at hentry with he
    · rcases List.mem_append.mp hentry with hm | hm
      · exact hc e entry hm
      · rw [List.mem_singleton.mp hm, he]
        exact bindingOf_tagged hcall event
    · exact hc e entry hentry
  | unsubscribe event fn =>
    rw [Consumer.call, unsubscribe_subscriptions] at hentry
    split_ifs at hentry with he
    · exact hc e entry (List.mem_of_mem_eraseP hentry)
    · exact hc e entry hentry

theorem Consumer.Tagged.foldl {calls : List BusCall} (hcalls : ∀ call ∈ calls, call.Tagged)
    {c : Consumer Callback} (hc : c.Tagged) : (calls.foldl Consumer.call c).Tagged := by
  induction calls generalizing c with
  | nil => exact hc
  | cons call calls ih =>
    have hcall := hc.call (hcalls call List.mem_cons_self)
    exact ih (fun b hb => hcalls b (List.mem_cons_of_mem _ hb)) hcall

theorem Consumer.unsubscribe_queueBindings {c : Consumer Callback} {event : String}
    {fn : Callback} {b : Binding} {rest : List (Entry Callback)}
    (h : c.ofSubscription fn.uuid event = ⟨fn, b⟩ :: rest) :
    (c.unsubscribe event fn).queueBindings = c.queueBindings.erase b := by
  have hfind : (c.subscriptions event).find? (fun entry => entry.handler = fn) =
      (c.ofSubscription fn.uuid event).find? (fun entry => entry.handler = fn) := by
    unfold ofSubscription ofKey
    rw [List.find?_filter]
    congr 1
    funext entry
    by_cases hf : entry.handler = fn <;> simp [hf]
  rw [h, List.find?_cons_of_pos (by simp)] at hfind
  unfold unsubscribe
  rw [hfind]

theorem Consumer.Tagged.mem_call_of_ne {c : Consumer Callback} (hc : c.Tagged) {call : BusCall}
    (hcall : call.Tagged) {b : Binding} {uuid e : String} (hb : b.Tagged uuid e)
    (hne : e ≠ call.event ∨ uuid ≠ call.fn.uuid) :
    b ∈ (c.call call).queueBindings ↔ b ∈ c.queueBindings := by
  have hother : ∀ b' : Binding, b'.Tagged call.fn.uuid call.event → b ≠ b' := by
    rintro _ hb' rfl
    obtain ⟨hu, he⟩ := hb.unique hb'
    exact hne.elim (fun h => h he) (fun h => h hu)
  cases call with
  | subscribe event fn headers =>
    have hnew := hother _ (bindingOf_tagged hcall event)
    simp [Consumer.call, subscribe, hnew]
  | unsubscribe event fn =>
    simp only [Consumer.call, unsubscribe]
    split
    · rfl
    · next entry hentry =>
      have hmem := hc event entry (List.mem_of_find?_eq_some hentry)
      have hfn : entry.handler = fn := by simpa using List.find?_some hentry
      rw [hfn] at hmem
      simp [hother _ hmem]

theorem Consumer.Tagged.mem_foldl_of_ne {calls : List BusCall}
    (hcalls : ∀ call ∈ calls, call.Tagged) {b : Binding} {uuid e : String}
    (hb : b.Tagged uuid e) (hne : ∀ call ∈ calls, e ≠ call.event ∨ uuid ≠ call.fn.uuid)
    {c : Consumer Callback} (hc : c.Tagged) :
    b ∈ (calls.foldl Consumer.call c).queueBindings ↔ b ∈ c.queueBindings := by
  induction calls generalizing c with
  | nil => rfl
  | cons call calls ih =>
    have hcall := hcalls call List.mem_cons_self
    have hrest := ih (fun b hb => hcalls b (List.mem_cons_of_mem _ hb))
      (fun b hb => hne b (List.mem_cons_of_mem _ hb)) (hc.call hcall)
    exact hrest.trans (hc.mem_call_of_ne hcall hb (hne call List.mem_cons_self))

section UpdateLoop
variable {s : Subscription} {fn : Callback} {prev : CallbackRow}

/-- Of the four branches only the one for changed headers can lose the new binding: when
the headers differ from the stored ones but not from those of the entry. -/
theorem mem_queueBindings_updateTurn (hu : prev.fn.uuid = fn.uuid) {event : String}
    {headers : Headers} (hs : event ∈ s.events) {c : Consumer Callback} {b : Binding}
    (hc : c.ofSubscription fn.uuid event = rowEntries prev event b) :
    bindingOf event headers ∈
        ((updateTurn s fn prev event headers).foldl Consumer.call c).queueBindings ↔
      ¬ (event ∈ prev.events ∧ headers ≠ prev.headers ∧ b = bindingOf event headers) := by
  unfold rowEntries at hc
  by_cases hp : event ∈ prev.events
  · rw [if_pos hp] at hc
    by_cases hh : headers = prev.headers
    · rw [updateTurn_kept hs hp hh]
      simp [Consumer.call, Consumer.subscribe, hh]
    · have hafter : (c.subscribe event fn headers).ofSubscription prev.fn.uuid event =
          ⟨prev.fn, b⟩ :: [⟨fn, bindingOf event headers⟩] := by
        rw [Consumer.ofSubscription_subscribe, if_pos ⟨rfl, hu⟩, hu, hc]
        rfl
      rw [updateTurn_changed hs hp hh]
      simp only [List.foldl_cons, List.foldl_nil, Consumer.call]
      rw [Consumer.unsubscribe_queueBindings hafter]
      simp [Consumer.subscribe, hp, hh, eq_comm]
  · rw [updateTurn_added hs hp]
    simp [Consumer.call, Consumer.subscribe, hp]

theorem tagged_updateTurn (hf : fn.uuid = s.uuid) {event : String} {headers : Headers}
    (hh : headers.lookup "x-subscription" = some (.str s.uuid)) {call : BusCall}
    (hcall : call ∈ updateTurn s fn prev event headers) : call.Tagged := by
  rcases mem_updateTurn hcall with rfl | rfl
  · exact hh.trans (by rw [hf])
  · trivial

theorem tagged_updateLoop (hf : fn.uuid = s.uuid) {order : List String} {headers : Headers}
    (hh : headers.lookup "x-subscription" = some (.str s.uuid)) {call : BusCall}
    (hcall : call ∈ (updateLoop s fn prev order headers).1) : call.Tagged := by
  induction order generalizing headers with
  | nil => cases hcall
  | cons event rest ih =>
    have hnext : (handleTenantEvents event headers).lookup "x-subscription" =
        some (.str s.uuid) := by
      rw [lookup_handleTenantEvents_of_not (by decide), hh]
    rcases List.mem_append.mp hcall with hturn | hrest
    · exact tagged_updateTurn hf hnext hturn
    · exact ih hnext hrest

/-- Over the whole loop, the binding of a current event is lost in its own turn or not at all. -/
theorem mem_queueBindings_updateLoop (hu : prev.fn.uuid = fn.uuid) (hf : fn.uuid = s.uuid)
    {order : List String} (hn : order.Nodup) {e : String} (he : e ∈ order) (hs : e ∈ s.events)
    {headers : Headers} (hh : headers.lookup "x-subscription" = some (.str s.uuid))
    {c : Consumer Callback} (htag : c.Tagged) {b : Binding}
    (hc : c.ofSubscription fn.uuid e = rowEntries prev e b) :
    bindingOf e (loopHeaders order e headers) ∈
        ((updateLoop s fn prev order headers).1.foldl Consumer.call c).queueBindings ↔
      ¬ (e ∈ prev.events ∧ loopHeaders order e headers ≠ prev.headers ∧
        b = bindingOf e (loopHeaders order e headers)) := by
  induction order generalizing c headers with
  | nil => cases he
  | cons event rest ih =>
    obtain ⟨hnot, hn'⟩ := List.nodup_cons.mp hn
    have hnext : (handleTenantEvents event headers).lookup "x-subscription" =
        some (.str s.uuid) := by
      rw [lookup_handleTenantEvents_of_not (by decide), hh]
    have hturn : ∀ call ∈ updateTurn s fn prev event (handleTenantEvents event headers),
        call.Tagged := fun call hcall => tagged_updateTurn hf hnext hcall
    unfold updateLoop
    simp only [List.foldl_append]
    by_cases hev : e = event
    · subst hev
      rw [loopHeaders_cons_self]
      have htagged := bindingOf_tagged hnext e
      rw [Consumer.Tagged.mem_foldl_of_ne (fun call hcall => tagged_updateLoop hf hnext hcall)
        htagged _ (htag.foldl hturn)]
      · exact mem_queueBindings_updateTurn hu hs hc
      · intro call hcall
        exact Or.inl fun h => hnot (h ▸ (mem_updateLoop hcall).1)
    · have hrest : e ∈ rest := (List.mem_cons.mp he).resolve_left hev
      rw [loopHeaders_cons_of_ne hev]
      refine ih hn' hrest hnext (htag.foldl hturn) ?_
      rw [ofSubscription_updateTurn_of_ne hev, hc]

end UpdateLoop

/-- Every entry left in the table has its binding at the broker. -/
def Consumer.Bound (c : Consumer Callback) : Prop :=
  ∀ e, ∀ entry ∈ c.subscriptions e, entry.binding ∈ c.queueBindings

/-- An event that an update keeps is reached by the loop with the headers stored in the
registry, or with other headers than those the event is subscribed with. -/
def Tracked.KeepsBindings (master : String) (σ : Tracked) : Notification → Prop
  | .updated s order => ∀ prev, σ.handler.subscriptionCallbacks s.uuid = some prev →
      ∀ e ∈ s.events, ∀ entry ∈ σ.handler.entries s.uuid e,
        loopHeaders order e (buildHeaders master s) = prev.headers ∨
          entry.binding ≠ bindingOf e (loopHeaders order e (buildHeaders master s))
  | _ => True

theorem Consumer.Bound.registerCalls {c : Consumer Callback} (hc : c.Bound) (fn : Callback)
    (extraHeaders : Headers) (events : List String) :
    ((registerCalls fn extraHeaders events).foldl Consumer.call c).Bound := by
  induction events generalizing c with
  | nil => exact hc
  | cons event events ih =>
    have hcall : (c.subscribe event fn (handleTenantEvents event extraHeaders)).Bound := by
      intro e entry hentry
      rw [subscribe_subscriptions] at hentry
      apply Finset.mem_insert.mpr
      split_ifs at hentry with he
      · rcases List.mem_append.mp hentry with hm | hm
        · exact Or.inr (hc e entry hm)
        · rw [List.mem_singleton.mp hm]
          exact Or.inl rfl
      · exact Or.inr (hc e entry hentry)
    exact ih hcall

theorem mem_entries_self {h : SubscriptionBusEventHandler} {e : String} {entry : Entry Callback} :
    entry ∈ h.entries entry.handler.uuid e ↔ entry ∈ h.busConsumer.subscriptions e := by
  simp [entries, Consumer.ofSubscription, ofKey]

section Step
variable (master : String) {σ : Tracked}

theorem tagged_registerCalls {fn : Callback} {headers : Headers} {events : List String}
    (hh : headers.lookup "x-subscription" = some (.str fn.uuid)) {call : BusCall}
    (hcall : call ∈ registerCalls fn headers events) : call.Tagged := by
  obtain ⟨e, -, rfl⟩ := List.mem_map.mp hcall
  exact (lookup_handleTenantEvents_of_not (by decide) e headers).trans hh

theorem tagged_unregisterCalls {fn : Callback} {events : List String} {call : BusCall}
    (hcall : call ∈ unregisterCalls fn events) : call.Tagged := by
  obtain ⟨e, -, rfl⟩ := List.mem_map.mp hcall
  trivial

theorem Tracked.Agrees.tagged_step (ha : σ.Agrees) (ht : σ.handler.busConsumer.Tagged)
    {n : Notification} (hv : σ.Valid n) : (σ.step master n).handler.busConsumer.Tagged := by
  cases n with
  | created s =>
    change (σ.handler.register master s).busConsumer.Tagged
    rw [register_eq]
    have hh := lookup_buildHeaders_subscription master s
    exact ht.foldl fun call hcall => tagged_registerCalls hh hcall
  | updated s order =>
    obtain ⟨-, t, hl, htu, -⟩ := hv
    obtain ⟨prev, hprev, -⟩ := ha.row t hl
    rw [htu] at hprev
    have hh := lookup_buildHeaders_subscription master s
    simp only [Tracked.step, handle, update_of_some hprev]
    exact ht.foldl fun call hcall => tagged_updateLoop rfl hh hcall
  | deleted s =>
    change (σ.handler.unregister s).busConsumer.Tagged
    cases hr : σ.handler.subscriptionCallbacks s.uuid with
    | none =>
      rw [unregister_of_none hr]
      exact ht
    | some row =>
      rw [unregister_of_some hr]
      exact ht.foldl fun call hcall => tagged_unregisterCalls hcall

theorem Tracked.Agrees.bound_deleted (ha : σ.Agrees) (ht : σ.handler.busConsumer.Tagged)
    (hb : σ.handler.busConsumer.Bound) (s : Subscription) :
    (σ.step master (.deleted s)).handler.busConsumer.Bound := by
  change (σ.handler.unregister s).busConsumer.Bound
  intro e entry hentry
  rw [← mem_entries_self] at hentry
  have hu : entry.handler.uuid ≠ s.uuid := by
    intro hu
    rw [hu, ha.consistent.entries_unregister] at hentry
    cases hentry
  rw [entries_unregister_of_ne ha.consistent hu, mem_entries_self] at hentry
  have hmem := hb e entry hentry
  cases hr : σ.handler.subscriptionCallbacks s.uuid with
  | none =>
    rw [unregister_of_none hr]
    exact hmem
  | some row =>
    have hne : ∀ call ∈ unregisterCalls row.fn row.events,
        e ≠ call.event ∨ entry.handler.uuid ≠ call.fn.uuid := by
      intro call hcall
      obtain ⟨event, -, rfl⟩ := List.mem_map.mp hcall
      right
      rw [BusCall.fn, ha.consistent.uuid_eq hr]
      exact hu
    rw [unregister_of_some hr]
    exact (Consumer.Tagged.mem_foldl_of_ne (fun call hcall => tagged_unregisterCalls hcall)
      (ht e entry hentry) hne ht).mpr hmem

/-- An update keeps every entry bound exactly when it keeps the bindings of its own events. -/
theorem Tracked.Agrees.bound_updated_iff (ha : σ.Agrees) (ht : σ.handler.busConsumer.Tagged)
    (hb : σ.handler.busConsumer.Bound) {s : Subscription} {order : List String}
    (hv : σ.Valid (.updated s order)) :
    (σ.step master (.updated s order)).handler.busConsumer.Bound ↔
      σ.KeepsBindings master (.updated s order) := by
  obtain ⟨hn, t, hl, htu, ho⟩ := hv
  obtain ⟨prev, hprev, -, hpe⟩ := ha.row t hl
  rw [htu] at hprev
  rw [← hpe] at ho
  have hu : prev.fn.uuid = s.uuid := ha.consistent.uuid_eq hprev
  have hh := lookup_buildHeaders_subscription master s
  obtain ⟨h', headers, hok, -, hcons, -, hother, hown⟩ :=
    ha.consistent.update_spec master hprev ho
  have hstep : (σ.step master (.updated s order)).handler = h' := by
    simp only [Tracked.step, handle, hok]
  have htags : ∀ call ∈ (updateLoop s (newFn σ.handler s) prev order
      (buildHeaders master s)).1, call.Tagged := fun call hcall => tagged_updateLoop rfl hh hcall
  -- Each current event: its new entry is bound unless its turn unbinds it again.
  have hturn : ∀ e ∈ s.events, bindingOf e (loopHeaders order e (buildHeaders master s)) ∈
      h'.busConsumer.queueBindings ↔ ∀ entry ∈ σ.handler.entries s.uuid e,
        loopHeaders order e (buildHeaders master s) = prev.headers ∨
          entry.binding ≠ bindingOf e (loopHeaders order e (buildHeaders master s)) := by
    intro e he
    obtain ⟨b, hbe⟩ := ha.consistent.entries_some hprev e
    have hprevs : σ.handler.busConsumer.ofSubscription (newFn σ.handler s).uuid e =
        rowEntries prev e b := hbe
    have hnew : (newFn σ.handler s).uuid = s.uuid := rfl
    have hloop := mem_queueBindings_updateLoop hu hnew ho.1 ((ho.2 e).mpr (Or.inl he)) he hh ht
      hprevs
    rw [hcons, hloop, hbe]
    by_cases hp : e ∈ prev.events
    · rw [rowEntries, if_pos hp]
      simp only [List.mem_singleton, forall_eq]
      tauto
    · simp [rowEntries, hp]
  rw [hstep]
  constructor
  · intro hbound prev' hprev' e he
    obtain rfl : prev = prev' := Option.some.inj (hprev.symm.trans hprev')
    refine (hturn e he).mp (hbound e ⟨newFn σ.handler s, _⟩ ?_)
    rw [← mem_entries_self]
    change _ ∈ h'.entries s.uuid e
    rw [hown e, rowEntries, if_pos he]
    exact List.mem_cons_self
  · intro hkeeps e entry hentry
    rw [← mem_entries_self] at hentry
    by_cases hus : entry.handler.uuid = s.uuid
    · rw [hus, hown e, rowEntries] at hentry
      split_ifs at hentry with he
      · rw [List.mem_singleton.mp hentry]
        exact (hturn e he).mpr (hkeeps prev hprev e he)
      · cases hentry
    · rw [hother _ hus, mem_entries_self] at hentry
      rw [hcons]
      refine (Consumer.Tagged.mem_foldl_of_ne htags (ht e entry hentry) ?_ ht).mpr
        (hb e entry hentry)
      intro call hcall
      right
      rw [uuid_of_mem_updateLoop hu hcall]
      exact hus

theorem Tracked.Agrees.bound_step_iff (ha : σ.Agrees) (ht : σ.handler.busConsumer.Tagged)
    (hb : σ.handler.busConsumer.Bound) {n : Notification} (hv : σ.Valid n) :
    (σ.step master n).handler.busConsumer.Bound ↔ σ.KeepsBindings master n := by
  cases n with
  | created s =>
    refine iff_of_true ?_ trivial
    change (σ.handler.register master s).busConsumer.Bound
    rw [register_eq]
    exact hb.registerCalls _ _ _
  | updated s order => exact ha.bound_updated_iff master ht hb hv
  | deleted s => exact iff_of_true (ha.bound_deleted master ht hb s) trivial

end Step

/-- After every notification each entry of the table is still bound, exactly when no update
re-subscribes an event with the arguments it already has while its headers differ from the
stored ones. -/
theorem history_bound_iff (master exchangeType : String) (history : List Notification)
    (hv : Run.Along (Tracked.step master) Tracked.Valid (.init exchangeType) history) :
    Run.Always (Tracked.step master) (fun σ => σ.handler.busConsumer.Bound) (.init exchangeType)
        history ↔
      Run.Along (Tracked.step master) (Tracked.KeepsBindings master) (.init exchangeType)
        history := by
  have hempty : ∀ e, (Tracked.init exchangeType).handler.busConsumer.subscriptions e = [] :=
    fun _ => rfl
  refine Run.always_iff_along (P := fun σ => σ.handler.busConsumer.Bound)
    (J := fun σ => σ.Agrees ∧ σ.handler.busConsumer.Tagged) ?_ ?_
    ⟨Tracked.agrees_init _, ?_⟩ ?_ hv
  · intro σ n ha hn
    exact ⟨ha.1.step master hn, ha.1.tagged_step master ha.2 hn⟩
  · intro σ n ha hb hn
    exact ha.1.bound_step_iff master ha.2 hb hn
  · intro e entry hentry
    rw [hempty] at hentry
    cases hentry
  · intro e entry hentry
    rw [hempty] at hentry
    cases hentry

def missedCallSubscription : Subscription :=
  { voicemailSubscription with eventsRel := [⟨"user_missed_call"⟩] }

/-- Without the voicemail event an update finds the headers it stored. -/
theorem history_bound_iff_renamed :
    Run.Always (Tracked.step "master") (fun σ => σ.handler.busConsumer.Bound) (.init "headers")
      [.created missedCallSubscription,
        .updated { missedCallSubscription with name := "renamed" } ["user_missed_call"]] := by
  refine (history_bound_iff "master" "headers" _ ?_).mpr ⟨trivial, ?_, trivial⟩
  · refine ⟨⟨by decide, by decide⟩, ⟨by decide, ?_⟩, trivial⟩
    exact ⟨missedCallSubscription, List.mem_cons_self, rfl, by decide⟩
  · intro prev hprev e he entry hentry
    left
    cases hprev
    rw [List.mem_singleton.mp he]
    decide

def renamedHistory : List Notification :=
  [.created voicemailSubscription,
    .updated { voicemailSubscription with name := "renamed" }
      ["user_missed_call", globalVoicemailMessageCreated]]

/-- The voicemail entry is subscribed again with its own arguments, then unbound. -/
theorem renamedHistory_not_bound :
    Run.Along (Tracked.step "master") Tracked.Valid (.init "headers") renamedHistory ∧
      ¬ (renamedHistory.foldl (Tracked.step "master")
        (.init "headers")).handler.busConsumer.Bound := by
  constructor
  · refine ⟨⟨by decide, by decide⟩, ⟨by decide, ?_⟩, trivial⟩
    exact ⟨voicemailSubscription, List.mem_cons_self, rfl, by decide⟩
  · intro h
    have := h globalVoicemailMessageCreated
    revert this
    decide

end WazoWebhookd

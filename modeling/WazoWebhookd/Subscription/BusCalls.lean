import WazoWebhookd.Subscription.Headers

/-! What the loops of the router do to the entries of one subscription under one event.
The entries of other subscriptions, and of other events, are not touched. -/
namespace WazoWebhookd
open KeyedList

def Callback.uuid (fn : Callback) : String := fn.subscription.uuid

/-- The entries under `event` whose callback belongs to the subscription `uuid`. -/
def Consumer.ofSubscription (c : Consumer Callback) (uuid event : String) :
    List (Entry Callback) :=
  ofKey (fun entry => entry.handler.uuid) uuid (c.subscriptions event)

theorem Consumer.ofSubscription_subscribe (c : Consumer Callback) (event : String)
    (fn : Callback) (headers : Headers) (uuid e : String) :
    (c.subscribe event fn headers).ofSubscription uuid e =
      if e = event ∧ uuid = fn.uuid
      then c.ofSubscription uuid e ++ [⟨fn, bindingOf event headers⟩]
      else c.ofSubscription uuid e := by
  unfold ofSubscription
  rw [subscribe_subscriptions]
  by_cases he : e = event
  · by_cases hu : uuid = fn.uuid
    · subst hu
      rw [if_pos he, if_pos ⟨he, rfl⟩, ofKey_append]
      simp [ofKey]
    · have hother : ofKey (fun entry : Entry Callback => entry.handler.uuid) uuid
          [⟨fn, bindingOf event headers⟩] = [] := ofKey_singleton_of_ne _ (Ne.symm hu)
      rw [if_pos he, if_neg fun h => hu h.2, ofKey_append, hother, List.append_nil]
  · rw [if_neg he, if_neg fun h => he h.1]

theorem Consumer.ofSubscription_unsubscribe (c : Consumer Callback) (event : String)
    (fn : Callback) (uuid e : String) :
    (c.unsubscribe event fn).ofSubscription uuid e =
      if e = event ∧ uuid = fn.uuid
      then (c.ofSubscription uuid e).eraseP fun entry => entry.handler = fn
      else c.ofSubscription uuid e := by
  unfold ofSubscription
  rw [unsubscribe_subscriptions]
  by_cases he : e = event
  · by_cases hu : uuid = fn.uuid
    · rw [if_pos he, if_pos ⟨he, hu⟩]
      apply ofKey_eraseP_of_eq
      intro entry hentry
      rw [of_decide_eq_true hentry, hu]
    · rw [if_pos he, if_neg fun h => hu h.2]
      apply ofKey_eraseP_of_ne
      intro entry hentry
      rw [of_decide_eq_true hentry]
      exact Ne.symm hu
  · rw [if_neg he, if_neg fun h => he h.1]

def BusCall.event : BusCall → String
  | .subscribe event _ _ => event
  | .unsubscribe event _ => event

/-- Calls about other events, or for other subscriptions, leave these entries alone. -/
theorem ofSubscription_foldl_of_ne {uuid e : String} (calls : List BusCall)
    (h : ∀ call ∈ calls, e ≠ call.event ∨ uuid ≠ call.fn.uuid) (c : Consumer Callback) :
    (calls.foldl Consumer.call c).ofSubscription uuid e = c.ofSubscription uuid e := by
  induction calls generalizing c with
  | nil => rfl
  | cons call calls ih =>
    have hcall : (c.call call).ofSubscription uuid e = c.ofSubscription uuid e := by
      have hne := h call List.mem_cons_self
      cases call with
      | subscribe event fn headers =>
        exact (c.ofSubscription_subscribe event fn headers uuid e).trans
          (if_neg fun ha => hne.elim (fun h => h ha.1) (fun h => h ha.2))
      | unsubscribe event fn =>
        exact (c.ofSubscription_unsubscribe event fn uuid e).trans
          (if_neg fun ha => hne.elim (fun h => h ha.1) (fun h => h ha.2))
    rw [List.foldl_cons, ih (fun b hb => h b (List.mem_cons_of_mem _ hb)), hcall]

/-- `_register` appends one entry under each event. -/
theorem ofSubscription_registerCalls (fn : Callback) (extraHeaders : Headers)
    {events : List String} (hn : events.Nodup) (c : Consumer Callback) (uuid e : String) :
    ((registerCalls fn extraHeaders events).foldl Consumer.call c).ofSubscription uuid e =
      c.ofSubscription uuid e ++ if e ∈ events ∧ uuid = fn.uuid
        then [⟨fn, bindingOf e (handleTenantEvents e extraHeaders)⟩] else [] := by
  induction events generalizing c with
  | nil => simp [registerCalls]
  | cons event events ih =>
    obtain ⟨hnot, hn'⟩ := List.nodup_cons.mp hn
    simp only [registerCalls, List.map_cons, List.foldl_cons] at ih ⊢
    rw [ih hn', Consumer.call, Consumer.ofSubscription_subscribe]
    by_cases hu : uuid = fn.uuid
    · by_cases he : e = event
      · subst he
        simp [hu, hnot]
      · simp [hu, he]
    · simp [hu]

/-- `_unregister` removes the entry of its callback under each event. -/
theorem ofSubscription_unregisterCalls (fn : Callback) {events : List String}
    (hn : events.Nodup) (c : Consumer Callback) (uuid e : String) :
    ((unregisterCalls fn events).foldl Consumer.call c).ofSubscription uuid e =
      if e ∈ events ∧ uuid = fn.uuid
      then (c.ofSubscription uuid e).eraseP fun entry => entry.handler = fn
      else c.ofSubscription uuid e := by
  induction events generalizing c with
  | nil => simp [unregisterCalls]
  | cons event events ih =>
    obtain ⟨hnot, hn'⟩ := List.nodup_cons.mp hn
    simp only [unregisterCalls, List.map_cons, List.foldl_cons] at ih ⊢
    rw [ih hn', Consumer.call, Consumer.ofSubscription_unsubscribe]
    by_cases hu : uuid = fn.uuid
    · by_cases he : e = event
      · subst he
        simp [hu, hnot]
      · simp [hu, he]
    · simp [hu]

/-- The iteration reaches the global voicemail event before `event`. -/
def AfterGlobalVoicemail (order : List String) (event : String) : Prop :=
  globalVoicemailMessageCreated ∈ order.takeWhile (· ≠ event)

instance (order : List String) (event : String) : Decidable (AfterGlobalVoicemail order event) :=
  inferInstanceAs (Decidable (_ ∈ _))

theorem AfterGlobalVoicemail.ne {order : List String} {event : String}
    (h : AfterGlobalVoicemail order event) : event ≠ globalVoicemailMessageCreated := by
  have hall := List.all_eq_true.mp List.all_takeWhile _ h
  exact (of_decide_eq_true hall).symm

theorem not_afterGlobalVoicemail_cons_self (rest : List String) (event : String) :
    ¬ AfterGlobalVoicemail (event :: rest) event := by
  simp [AfterGlobalVoicemail]

theorem afterGlobalVoicemail_cons_of_ne {event e : String} (h : e ≠ event)
    (rest : List String) :
    AfterGlobalVoicemail (event :: rest) e ↔
      event = globalVoicemailMessageCreated ∨ AfterGlobalVoicemail rest e := by
  unfold AfterGlobalVoicemail
  rw [List.takeWhile_cons_of_pos (by simpa using h.symm), List.mem_cons, eq_comm]

/-- The headers with which the loop of `_update` reaches `event`: those it started with,
rewritten once the global voicemail event has been passed. -/
def loopHeaders (order : List String) (event : String) (headers : Headers) : Headers :=
  if AfterGlobalVoicemail order event then rewriteUserHeaders headers
  else handleTenantEvents event headers

theorem loopHeaders_cons_self (rest : List String) (event : String) (headers : Headers) :
    loopHeaders (event :: rest) event headers = handleTenantEvents event headers := by
  rw [loopHeaders, if_neg (not_afterGlobalVoicemail_cons_self rest event)]

/-- A turn hands its headers to the next. -/
theorem loopHeaders_cons_of_ne {event e : String} (h : e ≠ event) (rest : List String)
    (headers : Headers) :
    loopHeaders (event :: rest) e headers =
      loopHeaders rest e (handleTenantEvents event headers) := by
  have hcons := afterGlobalVoicemail_cons_of_ne h rest
  unfold loopHeaders
  by_cases hg : event = globalVoicemailMessageCreated
  · have hr : handleTenantEvents event headers = rewriteUserHeaders headers := by
      rw [hg, rewriteUserHeaders]
    have he : e ≠ globalVoicemailMessageCreated := hg ▸ h
    rw [if_pos (hcons.mpr (Or.inl hg)), hr, rewriteUserHeaders_idem, handleTenantEvents_of_ne he,
      ite_self]
  · rw [handleTenantEvents_of_ne hg]
    exact if_congr (hcons.trans (or_iff_right hg)) rfl rfl

section UpdateTurn
variable {s : Subscription} {fn : Callback} {prev : CallbackRow} {event : String}
  {headers : Headers}

theorem updateTurn_removed (hs : event ∉ s.events) :
    updateTurn s fn prev event headers = [.unsubscribe event prev.fn] := by
  rw [updateTurn, if_pos hs]

theorem updateTurn_added (hs : event ∈ s.events) (hp : event ∉ prev.events) :
    updateTurn s fn prev event headers = [.subscribe event fn headers] := by
  rw [updateTurn, if_neg (not_not.mpr hs), if_pos hp]

theorem updateTurn_changed (hs : event ∈ s.events) (hp : event ∈ prev.events)
    (hh : headers ≠ prev.headers) :
    updateTurn s fn prev event headers =
      [.subscribe event fn headers, .unsubscribe event prev.fn] := by
  rw [updateTurn, if_neg (not_not.mpr hs), if_neg (not_not.mpr hp), if_pos hh]

theorem updateTurn_kept (hs : event ∈ s.events) (hp : event ∈ prev.events)
    (hh : headers = prev.headers) :
    updateTurn s fn prev event headers =
      [.unsubscribe event prev.fn, .subscribe event fn headers] := by
  rw [updateTurn, if_neg (not_not.mpr hs), if_neg (not_not.mpr hp), if_neg (not_not.mpr hh)]

theorem mem_updateTurn {call : BusCall} (h : call ∈ updateTurn s fn prev event headers) :
    call = .subscribe event fn headers ∨ call = .unsubscribe event prev.fn := by
  by_cases hs : event ∈ s.events
  · by_cases hp : event ∈ prev.events
    · by_cases hh : headers = prev.headers
      · rw [updateTurn_kept hs hp hh] at h
        simpa [or_comm] using h
      · rw [updateTurn_changed hs hp hh] at h
        simpa using h
    · rw [updateTurn_added hs hp] at h
      exact Or.inl (by simpa using h)
  · rw [updateTurn_removed hs] at h
    exact Or.inr (by simpa using h)

theorem event_of_mem_updateTurn {call : BusCall}
    (h : call ∈ updateTurn s fn prev event headers) : call.event = event := by
  rcases mem_updateTurn h with rfl | rfl
  · rfl
  · rfl

theorem ofSubscription_updateTurn_of_ne {e : String} (hev : e ≠ event) (uuid : String)
    (c : Consumer Callback) :
    ((updateTurn s fn prev event headers).foldl Consumer.call c).ofSubscription uuid e =
      c.ofSubscription uuid e := by
  apply ofSubscription_foldl_of_ne
  intro call hcall
  have hevent := event_of_mem_updateTurn hcall
  exact Or.inl (hevent ▸ hev)

/-- What a registry row promises of the entries of its subscription under an event. -/
def rowEntries (row : CallbackRow) (event : String) (b : Binding) : List (Entry Callback) :=
  if event ∈ row.events then [⟨row.fn, b⟩] else []

theorem rowEntries_sublist (row : CallbackRow) (event : String) (b : Binding) :
    (rowEntries row event b).Sublist [⟨row.fn, b⟩] := by
  unfold rowEntries
  split_ifs
  · exact List.Sublist.refl _
  · exact List.nil_sublist _

/-- Each of the four branches ends with the new callback in the place of the old one. -/
theorem ofSubscription_updateTurn (hu : prev.fn.uuid = fn.uuid)
    {c : Consumer Callback} {b : Binding}
    (hc : c.ofSubscription fn.uuid event = rowEntries prev event b) :
    ((updateTurn s fn prev event headers).foldl Consumer.call c).ofSubscription fn.uuid event =
      rowEntries ⟨fn, s.events, headers⟩ event (bindingOf event headers) := by
  unfold rowEntries at hc ⊢
  by_cases hs : event ∈ s.events
  · by_cases hp : event ∈ prev.events
    · by_cases hh : headers = prev.headers
      · rw [updateTurn_kept hs hp hh]
        simp [Consumer.call, Consumer.ofSubscription_subscribe,
          Consumer.ofSubscription_unsubscribe, hc, hs, hp, hu]
      · rw [updateTurn_changed hs hp hh]
        simp [Consumer.call, Consumer.ofSubscription_subscribe,
          Consumer.ofSubscription_unsubscribe, hc, hs, hp, hu]
    · rw [updateTurn_added hs hp]
      simp [Consumer.call, Consumer.ofSubscription_subscribe, hc, hs, hp]
  · rw [updateTurn_removed hs]
    by_cases hp : event ∈ prev.events <;>
      simp [Consumer.call, Consumer.ofSubscription_unsubscribe, hc, hs, hp, hu]

end UpdateTurn

section UpdateLoop
variable {s : Subscription} {fn : Callback} {prev : CallbackRow}

theorem mem_updateLoop {order : List String} {headers : Headers} {call : BusCall}
    (h : call ∈ (updateLoop s fn prev order headers).1) :
    call.event ∈ order ∧ (call.fn = fn ∨ call.fn = prev.fn) := by
  induction order generalizing headers with
  | nil => cases h
  | cons event rest ih =>
    rcases List.mem_append.mp h with hturn | hrest
    · rcases mem_updateTurn hturn with rfl | rfl
      · exact ⟨List.mem_cons_self, Or.inl rfl⟩
      · exact ⟨List.mem_cons_self, Or.inr rfl⟩
    · have hm := ih hrest
      exact ⟨List.mem_cons_of_mem _ hm.1, hm.2⟩

theorem uuid_of_mem_updateLoop (hu : prev.fn.uuid = fn.uuid) {order : List String}
    {headers : Headers} {call : BusCall} (h : call ∈ (updateLoop s fn prev order headers).1) :
    call.fn.uuid = fn.uuid := by
  rcases (mem_updateLoop h).2 with hfn | hfn
  · rw [hfn]
  · rw [hfn, hu]

theorem ofSubscription_updateLoop_of_notMem {order : List String} {e : String} (he : e ∉ order)
    (headers : Headers) (uuid : String) (c : Consumer Callback) :
    ((updateLoop s fn prev order headers).1.foldl Consumer.call c).ofSubscription uuid e =
      c.ofSubscription uuid e := by
  apply ofSubscription_foldl_of_ne
  intro call hcall
  have hevent := (mem_updateLoop hcall).1
  exact Or.inl fun h => he (h ▸ hevent)

/-- The loop of `_update` leaves one entry under each current event, with the headers of
the turn that reached it, and none under the events it dropped. -/
theorem ofSubscription_updateLoop (hu : prev.fn.uuid = fn.uuid)
    {order : List String} (hn : order.Nodup) {e : String} (he : e ∈ order) {b : Binding}
    {c : Consumer Callback} (hc : c.ofSubscription fn.uuid e = rowEntries prev e b)
    (headers : Headers) :
    ((updateLoop s fn prev order headers).1.foldl Consumer.call c).ofSubscription fn.uuid e =
      if e ∈ s.events then [⟨fn, bindingOf e (loopHeaders order e headers)⟩] else [] := by
  induction order generalizing c headers with
  | nil => cases he
  | cons event rest ih =>
    obtain ⟨hnot, hn'⟩ := List.nodup_cons.mp hn
    unfold updateLoop
    simp only [List.foldl_append]
    by_cases hev : e = event
    · subst hev
      -- The rest of the loop does not come back to this event.
      rw [ofSubscription_updateLoop_of_notMem hnot, ofSubscription_updateTurn hu hc,
        loopHeaders_cons_self]
      rfl
    · have hrest : e ∈ rest := (List.mem_cons.mp he).resolve_left hev
      rw [ih hn' hrest, loopHeaders_cons_of_ne hev]
      rw [ofSubscription_updateTurn_of_ne hev, hc]

end UpdateLoop

end WazoWebhookd

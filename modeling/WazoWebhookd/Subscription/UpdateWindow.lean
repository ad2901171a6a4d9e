import WazoWebhookd.Subscription.Daemon
import WazoWebhookd.Subscription.FailingCalls

/-! What a message finds of a subscription while an update of it is handled, whatever other threads
do for other subscriptions in the meantime. -/
namespace WazoWebhookd
open Interleaving SubscriptionBusEventHandler HeadersExchange

section Loop
variable {s : Subscription} {fn : Callback} {prev : CallbackRow} {event : String}
  {headers : Headers} {b : Binding} {c : Consumer Callback}

/-- The entries of an event of both versions between the two calls of its turn. -/
def betweenCalls (fn : Callback) (prev : CallbackRow) (event : String) (headers : Headers)
    (b : Binding) : List (Entry Callback) :=
  if headers = prev.headers then [] else [⟨prev.fn, b⟩, ⟨fn, bindingOf event headers⟩]

/-- What there may be of the subscription under an event, when its turn has these headers. -/
inductive DuringUpdate (s : Subscription) (fn : Callback) (prev : CallbackRow) (event : String)
    (headers : Headers) (b : Binding) : List (Entry Callback) → Prop
  | before : DuringUpdate s fn prev event headers b (rowEntries prev event b)
  | between : event ∈ s.events → event ∈ prev.events →
    DuringUpdate s fn prev event headers b (betweenCalls fn prev event headers b)
  | after : DuringUpdate s fn prev event headers b
    (rowEntries ⟨fn, s.events, headers⟩ event (bindingOf event headers))

theorem betweenCalls_sublist (fn : Callback) (prev : CallbackRow) (event : String)
    (headers : Headers) (b : Binding) : (betweenCalls fn prev event headers b).Sublist
      [⟨prev.fn, b⟩, ⟨fn, bindingOf event headers⟩] := by
  unfold betweenCalls
  split_ifs
  · exact List.nil_sublist _
  · exact List.Sublist.refl _

namespace DuringUpdate
variable {found : List (Entry Callback)}

/-- There is an entry of each version at most, the stored one before the new one. -/
theorem sublist (h : DuringUpdate s fn prev event headers b found) :
    found.Sublist [⟨prev.fn, b⟩, ⟨fn, bindingOf event headers⟩] := by
  cases h with
  | before =>
    exact (rowEntries_sublist prev event b).trans (List.sublist_append_left _ [_])
  | between => exact betweenCalls_sublist fn prev event headers b
  | after => exact (rowEntries_sublist _ event _).trans (List.sublist_append_right [_] _)

theorem ne_nil (h : DuringUpdate s fn prev event headers b found) (hs : event ∈ s.events)
    (hp : event ∈ prev.events) (hh : headers ≠ prev.headers) : found ≠ [] := by
  cases h with
  | before => simp [rowEntries, hp]
  | between => simp [betweenCalls, hh]
  | after => simp [rowEntries, hs]

theorem length_le (h : DuringUpdate s fn prev event headers b found)
    (hh : headers = prev.headers) : found.length ≤ 1 := by
  cases h with
  | before => exact (rowEntries_sublist prev event b).length_le
  | between => simp [betweenCalls, hh]
  | after => exact (rowEntries_sublist ⟨fn, s.events, headers⟩ event _).length_le

end DuringUpdate

theorem duringUpdate_turn (hu : prev.fn.uuid = fn.uuid)
    (hc : c.ofSubscription fn.uuid event = rowEntries prev event b) {done : List BusCall}
    (h : done <+: updateTurn s fn prev event headers) :
    DuringUpdate s fn prev event headers b
      ((done.foldl Consumer.call c).ofSubscription fn.uuid event) := by
  by_cases hnil : done = []
  · subst hnil
    exact hc ▸ .before
  by_cases hall : done = updateTurn s fn prev event headers
  · subst hall
    rw [ofSubscription_updateTurn hu hc]
    exact .after
  by_cases hs : event ∈ s.events
  · by_cases hp : event ∈ prev.events
    · have hrow : rowEntries prev event b = [⟨prev.fn, b⟩] := if_pos hp
      have hbetween : (done.foldl Consumer.call c).ofSubscription fn.uuid event =
          betweenCalls fn prev event headers b := by
        unfold betweenCalls
        by_cases hh : headers = prev.headers
        · rw [updateTurn_kept hs hp hh] at h hall
          obtain rfl : done = [.unsubscribe event prev.fn] := by
            simp only [List.prefix_cons_iff, List.prefix_nil] at h
            grind
          simp [Consumer.call, Consumer.ofSubscription_unsubscribe, hc, hrow, hu, hh]
        · rw [updateTurn_changed hs hp hh] at h hall
          obtain rfl : done = [.subscribe event fn headers] := by
            simp only [List.prefix_cons_iff, List.prefix_nil] at h
            grind
          simp [Consumer.call, Consumer.ofSubscription_subscribe, hc, hrow, hh]
      rw [hbetween]
      exact .between hs hp
    · rw [updateTurn_added hs hp] at h hall
      simp only [List.prefix_cons_iff, List.prefix_nil] at h
      grind
  · rw [updateTurn_removed hs] at h hall
    simp only [List.prefix_cons_iff, List.prefix_nil] at h
    grind

theorem exists_betweenCalls_turn (hu : prev.fn.uuid = fn.uuid) (hs : event ∈ s.events)
    (hp : event ∈ prev.events) (headers : Headers)
    (hc : c.ofSubscription fn.uuid event = rowEntries prev event b) :
    ∃ done, done <+: updateTurn s fn prev event headers ∧
      (done.foldl Consumer.call c).ofSubscription fn.uuid event =
        betweenCalls fn prev event headers b := by
  have hrow : rowEntries prev event b = [⟨prev.fn, b⟩] := if_pos hp
  unfold betweenCalls
  by_cases hh : headers = prev.headers
  · rw [updateTurn_kept hs hp hh, if_pos hh]
    refine ⟨[.unsubscribe event prev.fn], ⟨[_], rfl⟩, ?_⟩
    simp [Consumer.call, Consumer.ofSubscription_unsubscribe, hc, hrow, hu]
  · rw [updateTurn_changed hs hp hh, if_neg hh]
    refine ⟨[.subscribe event fn headers], ⟨[_], rfl⟩, ?_⟩
    simp [Consumer.call, Consumer.ofSubscription_subscribe, hc, hrow]

theorem ofSubscription_updateLoop_part {order : List String} {e : String} (he : e ∉ order)
    {done : List BusCall} (h : done <+: (updateLoop s fn prev order headers).1) (uuid : String) :
    (done.foldl Consumer.call c).ofSubscription uuid e = c.ofSubscription uuid e := by
  apply ofSubscription_foldl_of_ne
  intro call hcall
  have hevent := (mem_updateLoop (h.subset hcall)).1
  exact .inl fun heq => he (heq ▸ hevent)

theorem duringUpdate_loop (hu : prev.fn.uuid = fn.uuid) {order : List String}
    (hn : order.Nodup) {e : String} (he : e ∈ order)
    (hc : c.ofSubscription fn.uuid e = rowEntries prev e b) (headers : Headers)
    {done : List BusCall} (h : done <+: (updateLoop s fn prev order headers).1) :
    DuringUpdate s fn prev e (loopHeaders order e headers) b
      ((done.foldl Consumer.call c).ofSubscription fn.uuid e) := by
  induction order generalizing c headers done with
  | nil => cases he
  | cons event rest ih =>
    obtain ⟨hnot, hn'⟩ := List.nodup_cons.mp hn
    rw [updateLoop] at h
    rcases List.prefix_or_prefix_of_prefix h (List.prefix_append _ _) with hturn | ⟨more, rfl⟩
    · by_cases hev : e = event
      · subst hev
        rw [loopHeaders_cons_self]
        exact duringUpdate_turn hu hc hturn
      · have hsame : (done.foldl Consumer.call c).ofSubscription fn.uuid e =
            c.ofSubscription fn.uuid e := by
          apply ofSubscription_foldl_of_ne
          intro call hcall
          have hevent := event_of_mem_updateTurn (hturn.subset hcall)
          exact .inl (hevent ▸ hev)
        rw [hsame, hc]
        exact .before
    · have hmore := (List.prefix_append_right_inj _).mp h
      rw [List.foldl_append]
      by_cases hev : e = event
      · subst hev
        rw [ofSubscription_updateLoop_part hnot hmore, ofSubscription_updateTurn hu hc,
          loopHeaders_cons_self]
        exact .after
      · rw [loopHeaders_cons_of_ne hev]
        refine ih hn' ((List.mem_cons.mp he).resolve_left hev) ?_ _ hmore
        rw [ofSubscription_updateTurn_of_ne hev, hc]

/-- The loop comes to each event of both versions, and stops between the calls of its turn. -/
theorem exists_betweenCalls (hu : prev.fn.uuid = fn.uuid) {order : List String}
    {e : String} (he : e ∈ order) (hs : e ∈ s.events) (hp : e ∈ prev.events)
    (hc : c.ofSubscription fn.uuid e = rowEntries prev e b) (headers : Headers) :
    ∃ done, done <+: (updateLoop s fn prev order headers).1 ∧
      (done.foldl Consumer.call c).ofSubscription fn.uuid e =
        betweenCalls fn prev e (loopHeaders order e headers) b := by
  induction order generalizing c headers with
  | nil => cases he
  | cons event rest ih =>
    rw [updateLoop]
    by_cases hev : e = event
    · subst hev
      obtain ⟨done, hdone, hbetween⟩ := exists_betweenCalls_turn hu hs hp
        (handleTenantEvents e headers) hc
      rw [loopHeaders_cons_self]
      exact ⟨done, hdone.trans (List.prefix_append _ _), hbetween⟩
    · have hrest : e ∈ rest := (List.mem_cons.mp he).resolve_left hev
      rw [loopHeaders_cons_of_ne hev]
      have hsame : ((updateTurn s fn prev event (handleTenantEvents event headers)).foldl
          Consumer.call c).ofSubscription fn.uuid e = rowEntries prev e b :=
        (ofSubscription_updateTurn_of_ne hev fn.uuid c).trans hc
      obtain ⟨done, hdone, hbetween⟩ := ih hrest hsame (handleTenantEvents event headers)
      refine ⟨_, (List.prefix_append_right_inj _).mpr hdone, ?_⟩
      rw [List.foldl_append]
      exact hbetween

end Loop

theorem ofSubscription_call_congr {c c' : Consumer Callback} {uuid : String}
    (h : ∀ e, c.ofSubscription uuid e = c'.ofSubscription uuid e) (call : BusCall) (e : String) :
    (c.call call).ofSubscription uuid e = (c'.call call).ofSubscription uuid e := by
  cases call with
  | subscribe event fn headers =>
    rw [Consumer.call, Consumer.call, Consumer.ofSubscription_subscribe,
      Consumer.ofSubscription_subscribe, h e]
  | unsubscribe event fn =>
    rw [Consumer.call, Consumer.call, Consumer.ofSubscription_unsubscribe,
      Consumer.ofSubscription_unsubscribe, h e]

section Thread
variable (master : String) (h₀ : SubscriptionBusEventHandler) (s : Subscription)
  (prev : CallbackRow) (order : List String)

def updateCalls (fn : Callback) : List BusCall :=
  (updateLoop s fn prev order (buildHeaders master s)).1

/-- How far a thread has come with the update, and what the table holds of the subscription. -/
inductive Updating (h : SubscriptionBusEventHandler) : Thread Action Notification → Prop
  | waiting : h.subscriptionCallbacks s.uuid = some prev →
    (∀ e, h.entries s.uuid e = h₀.entries s.uuid e) → Updating h ⟨[], [.updated s order]⟩
  | running (fn : Callback) (done rest : List BusCall) (row : CallbackRow)
    {thread : Thread Action Notification} : fn.subscription = dump s →
    updateCalls master s prev order fn = done ++ rest →
    thread = ⟨rest.map .bus ++ [.store s.uuid row], []⟩ → row.fn.uuid = s.uuid →
    (∀ e, h.entries s.uuid e =
      (done.foldl Consumer.call h₀.busConsumer).ofSubscription s.uuid e) → Updating h thread
  | finished (fn : Callback) : fn.subscription = dump s →
    (∀ e, h.entries s.uuid e = ((updateCalls master s prev order fn).foldl Consumer.call
      h₀.busConsumer).ofSubscription s.uuid e) → Updating h ⟨[], []⟩

variable {master h₀ s prev order}

theorem Updating.entries {h : SubscriptionBusEventHandler} {thread : Thread Action Notification}
    (hu : Updating master h₀ s prev order h thread) :
    ∃ fn done, fn.subscription = dump s ∧ done <+: updateCalls master s prev order fn ∧
      ∀ e, h.entries s.uuid e =
        (done.foldl Consumer.call h₀.busConsumer).ofSubscription s.uuid e := by
  cases hu with
  | waiting hrow hentries => exact ⟨⟨0, dump s⟩, [], rfl, List.nil_prefix, hentries⟩
  | running fn done rest row hfn hcalls hthread hrow hentries =>
    exact ⟨fn, done, hfn, ⟨rest, hcalls.symm⟩, hentries⟩
  | finished fn hfn hentries => exact ⟨fn, _, hfn, List.prefix_rfl, hentries⟩

theorem apart_updating :
    System.Apart act (start master)
      (fun h thread => h.Filed ∧ Updating master h₀ s prev order h thread)
      (fun a => ∃ uuid ≠ s.uuid, a.About uuid) (fun n => n.uuid ≠ s.uuid) where
  own_act := by
    rintro h a actions pending ⟨hfiled, hu⟩
    cases hu with
    | running fn done rest row hfn hcalls hthread hrow hentries =>
      cases rest with
      | nil =>
        cases hthread
        have habout : (Action.store s.uuid row).About s.uuid := ⟨rfl, hrow⟩
        refine ⟨filed_act hfiled habout, .finished fn hfn fun e => ?_⟩
        rw [hcalls, List.append_nil]
        exact hentries e
      | cons call rest =>
        cases hthread
        refine ⟨hfiled, .running fn (done ++ [call]) rest row hfn (by simp [hcalls]) rfl hrow ?_⟩
        intro e
        rw [List.foldl_append]
        exact ofSubscription_call_congr hentries call e
  own_start := by
    rintro h n pending h' actions ⟨hfiled, hu⟩ hs
    cases hu with
    | waiting hrow hentries =>
      obtain ⟨-, hfiled', -⟩ := start_about hfiled hs
      have hbus := start_busConsumer hs
      simp only [SubscriptionBusEventHandler.start, updateStart, hrow] at hs
      cases hs
      refine ⟨hfiled', .running ⟨h.nextId, dump s⟩ [] _ _ rfl rfl rfl rfl fun e => ?_⟩
      exact hentries e
    | running fn done rest row hfn hcalls hthread hrow hentries =>
      exact absurd (congrArg Thread.actions hthread).symm (by simp)
  own_error := by
    rintro h n pending e ⟨hfiled, hu⟩ hs
    cases hu with
    | waiting hrow hentries =>
      simp only [SubscriptionBusEventHandler.start, updateStart, hrow] at hs
      cases hs
    | running fn done rest row hfn hcalls hthread hrow hentries =>
      exact absurd (congrArg Thread.actions hthread).symm (by simp)
  other_act := by
    rintro h a thread ⟨hfiled, hu⟩ ⟨uuid, hne, habout⟩
    obtain ⟨hrow', hentries'⟩ := act_of_ne (h := h) habout (Ne.symm hne)
    refine ⟨filed_act hfiled habout, ?_⟩
    cases hu with
    | waiting hrow hentries =>
      exact .waiting (hrow'.trans hrow) fun e => (hentries' e).trans (hentries e)
    | running fn done rest row hfn hcalls hthread hrow hentries =>
      exact .running fn done rest row hfn hcalls hthread hrow
        fun e => (hentries' e).trans (hentries e)
    | finished fn hfn hentries =>
      exact .finished fn hfn fun e => (hentries' e).trans (hentries e)
  other_start := by
    rintro h n h' actions thread ⟨hfiled, hu⟩ hne hs
    obtain ⟨habout, hfiled', hrow'⟩ := start_about hfiled hs
    have hbus := start_busConsumer hs
    have hentries' : ∀ e, h'.entries s.uuid e = h.entries s.uuid e := by
      intro e
      unfold SubscriptionBusEventHandler.entries
      rw [hbus]
    refine ⟨⟨hfiled', ?_⟩, fun a ha => ⟨n.uuid, hne, habout a ha⟩⟩
    cases hu with
    | waiting hrow hentries =>
      exact .waiting ((hrow' _ (Ne.symm hne)).trans hrow) fun e => (hentries' e).trans (hentries e)
    | running fn done rest row hfn hcalls hthread hrow hentries =>
      exact .running fn done rest row hfn hcalls hthread hrow
        fun e => (hentries' e).trans (hentries e)
    | finished fn hfn hentries =>
      exact .finished fn hfn fun e => (hentries' e).trans (hentries e)

end Thread

theorem World.Serving.isolated {master : String} {w : World} (hw : w.Serving master) :
    w.handler.Isolated master := by
  intro e entry hentry
  have hagrees := hw.agreeing.agrees
  have hmem : entry ∈ w.handler.entries entry.handler.uuid e :=
    List.mem_filter.mpr ⟨hentry, decide_eq_true rfl⟩
  cases hr : w.handler.subscriptionCallbacks entry.handler.uuid with
  | none =>
    have hnone := hagrees.consistent.entries_none hr e
    rw [hnone] at hmem
    cases hmem
  | some row =>
    obtain ⟨s, hs, hu⟩ := hagrees.live hr
    have hexact := (hagrees.exact_iff master "headers").mp hw.agreeing.exact s hs e
    rw [← hu] at hmem
    have hcontent : entry.content ∈ freshContent master s e :=
      hexact ▸ List.mem_map_of_mem hmem
    unfold freshContent at hcontent
    split_ifs at hcontent
    · obtain ⟨hsubscription, hbinding⟩ := Prod.mk.inj (List.mem_singleton.mp hcontent)
      rw [hsubscription, hbinding]
      exact ((isolates_buildHeaders master s).handleTenantEvents e).bindingOf e
    · cases hcontent

section Versions
variable (serviceManager : String → Option EntryPoint) (config : HookConfig)

/-- The versions of a subscription whose callbacks are called when a message is dispatched. -/
def BusDelivery.versions (d : BusDelivery) (h : SubscriptionBusEventHandler) (m : Message)
    (uuid : String) : List SubscriptionDict :=
  match d.dispatch serviceManager config h.busConsumer m with
  | .ok done => (done.invoked.map (·.1.handler.subscription)).filter (·.uuid = uuid)
  | .error _ => []

variable {serviceManager config} {master : String} {h : SubscriptionBusEventHandler}

open Classical in
/-- They are those of its entries that let the message through. -/
theorem versions_eq (hx : h.busConsumer.exchangeType = "headers") (hi : h.Isolated master)
    (d : BusDelivery) (m : Message) (uuid : String) :
    d.versions serviceManager config h m uuid =
      ((h.entries uuid m.name).filter fun entry =>
        Delivers entry.binding.arguments m.headers).map (·.handler.subscription) := by
  have hm : ∀ entry ∈ h.busConsumer.subscriptions m.name,
      matchMode entry.binding.arguments ≠ none := by
    intro entry hentry
    rw [(hi m.name entry hentry).matchMode]
    exact Option.some_ne_none _
  obtain ⟨done, hdone, hinvoked⟩ := dispatch_eq_privateReceivers (fun _ => false)
    (d.call serviceManager config) h.busConsumer hx m.name m.payload m.headers hm
  have hversions : d.versions serviceManager config h m uuid =
      (done.invoked.map (·.1.handler.subscription)).filter (·.uuid = uuid) := by
    rw [BusDelivery.versions, BusDelivery.dispatch, hdone]
  have hmap : done.invoked.map (·.1.handler.subscription) =
      (h.busConsumer.privateReceivers m.name m.headers).map (·.handler.subscription) := by
    rw [← hinvoked, List.map_map]
    rfl
  rw [hversions, hmap, List.filter_map, Consumer.privateReceivers, entries,
    Consumer.ofSubscription, KeyedList.ofKey, List.filter_filter, List.filter_filter]
  congr 1
  refine List.filter_congr fun entry _ => ?_
  rw [Bool.and_comm]
  rfl

end Versions

section Main
variable {ι : Type*} [DecidableEq ι] (serviceManager : String → Option EntryPoint)
  (config : HookConfig) {master : String}

def World.threads (w : World) (tasks : ι → List Notification) : Threads ι :=
  ⟨w.handler, fun i => ⟨[], tasks i⟩⟩

theorem World.Serving.isolated_run {w : World} (hw : w.Serving master)
    (tasks : ι → List Notification) (schedule : List ι) :
    let h := ((w.threads tasks).run master schedule).shared
    h.busConsumer.exchangeType = "headers" ∧ h.Isolated master := by
  have hstart : (w.threads tasks).Keeps
      (fun h => h.busConsumer.exchangeType = "headers" ∧ h.Isolated master)
      (Action.Isolated master) := by
    refine ⟨⟨hw.exchangeType, hw.isolated⟩, ?_⟩
    intro i a ha
    cases ha
  refine (hstart.run ?_ ?_ schedule).1
  · intro h a hi ha
    exact ⟨(act_exchangeType h a).trans hi.1, hi.2.act ha⟩
  · intro h n h' actions hi hs
    have hbus := start_busConsumer hs
    refine ⟨⟨hbus ▸ hi.1, fun e entry hentry => hi.2 e entry (hbus ▸ hentry)⟩, isolated_start hs⟩

variable {w : World} (hw : w.Serving master) {s₀ s : Subscription} {prev : CallbackRow}
  {order : List String} (hs₀ : s₀ ∈ w.database) (hu : s.uuid = s₀.uuid)
  (hr : w.handler.subscriptionCallbacks s.uuid = some prev)
  (ho : IsIteration order s.events s₀.events) {i : ι} {tasks : ι → List Notification}
  (hi : tasks i = [.updated s order]) (hothers : ∀ j ≠ i, ∀ n ∈ tasks j, n.uuid ≠ s.uuid)

include hw hs₀ hu hr

theorem entries_stored (e : String) :
    prev.fn.subscription = dump s₀ ∧ prev.events = s₀.events ∧
      w.handler.entries s.uuid e = rowEntries prev e
        (bindingOf e (handleTenantEvents e (buildHeaders master s₀))) := by
  obtain ⟨row, hrow, hdump, hevents⟩ := hw.agreeing.agrees.row s₀ hs₀
  obtain rfl : row = prev := Option.some.inj (hrow.symm.trans (hu ▸ hr))
  obtain ⟨b, hb⟩ := hw.agreeing.agrees.consistent.entries_some hr e
  refine ⟨hdump, hevents, ?_⟩
  have hexact := (hw.agreeing.agrees.exact_iff master "headers").mp hw.agreeing.exact s₀ hs₀ e
  rw [← hu, hb] at hexact
  rw [hb]
  unfold rowEntries at hexact ⊢
  unfold freshContent at hexact
  rw [hevents] at hexact ⊢
  by_cases he : e ∈ s₀.events
  · rw [if_pos he, if_pos he] at hexact
    have hbinding : b = bindingOf e (handleTenantEvents e (buildHeaders master s₀)) :=
      congrArg Prod.snd (List.head_eq_of_cons_eq hexact)
    rw [if_pos he, if_pos he, hbinding]
  · rw [if_neg he, if_neg he]

include ho hi

/-- There is a schedule that stops the update between the calls of an event of both versions. -/
theorem exists_betweenCalls_run {e : String} (he : e ∈ s.events) (he₀ : e ∈ s₀.events) :
    ∃ schedule, ∃ fn : Callback, fn.subscription = dump s ∧
      ((w.threads tasks).run master schedule).shared.entries s.uuid e =
        betweenCalls fn prev e (loopHeaders order e (buildHeaders master s))
          (bindingOf e (handleTenantEvents e (buildHeaders master s₀))) := by
  obtain ⟨-, hevents, hstored⟩ := entries_stored hw hs₀ hu hr e
  set fn : Callback := ⟨w.handler.nextId, dump s⟩ with hfn
  have hprevUuid : prev.fn.uuid = fn.uuid := hw.agreeing.agrees.consistent.uuid_eq hr
  obtain ⟨done, ⟨rest, hrest⟩, hbetween⟩ := exists_betweenCalls hprevUuid
    ((ho.2 e).mpr (.inl he)) he (hevents ▸ he₀) hstored (buildHeaders master s)
  have hthread : (w.threads tasks).thread i = ⟨[], [.updated s order]⟩ :=
    congrArg (Thread.mk []) hi
  set loop := updateLoop s fn prev order (buildHeaders master s) with hloop
  set popped : SubscriptionBusEventHandler :=
    ⟨Function.update w.handler.subscriptionCallbacks s.uuid none, w.handler.busConsumer,
      w.handler.nextId + 1⟩ with hpopped
  have hstart : w.handler.start master (.updated s order) = .ok (popped,
      done.map Action.bus ++ (rest.map Action.bus ++ [.store s.uuid ⟨fn, s.events, loop.2⟩])) := by
    simp only [SubscriptionBusEventHandler.start, updateStart, hr]
    rw [← List.append_assoc, ← List.map_append, hrest]
  -- The first step pops the row, and the others are the calls before the second one of the turn.
  refine ⟨i :: List.replicate (done.map Action.bus).length i, fn, rfl, ?_⟩
  have hrun : ((w.threads tasks).run master
      (i :: List.replicate (done.map Action.bus).length i)).shared =
        (done.map Action.bus).foldl act popped := by
    change System.shared (System.run act (start master) (System.step act (start master)
      (w.threads tasks) i) _) = _
    rw [System.step_of_start hthread hstart]
    exact System.run_replicate (Function.update_self _ _ _)
  rw [hrun, foldl_act_bus]
  exact hbetween

include hothers

/-- Whatever has happened of the update, an event is before, between or after its turn. -/
theorem duringUpdate_run (schedule : List ι) (e : String) :
    ∃ fn : Callback, fn.subscription = dump s ∧
      DuringUpdate s fn prev e (loopHeaders order e (buildHeaders master s))
        (bindingOf e (handleTenantEvents e (buildHeaders master s₀)))
        (((w.threads tasks).run master schedule).shared.entries s.uuid e) := by
  have hwaiting : w.handler.Filed ∧ Updating master w.handler s prev order w.handler
      ((w.threads tasks).thread i) := by
    have hthread : (w.threads tasks).thread i = ⟨[], [.updated s order]⟩ :=
      congrArg (Thread.mk []) hi
    rw [hthread]
    exact ⟨fun _ _ => hw.agreeing.agrees.consistent.uuid_eq, .waiting hr fun _ => rfl⟩
  have helsewhere : ∀ j ≠ i, System.Elsewhere (fun a => ∃ uuid ≠ s.uuid, a.About uuid)
      (fun n => n.uuid ≠ s.uuid) ((w.threads tasks).thread j) :=
    fun j hj => ⟨fun a ha => absurd ha List.not_mem_nil, hothers j hj⟩
  obtain ⟨-, hupdating⟩ := apart_updating.run hwaiting helsewhere schedule
  obtain ⟨fn, done, hfn, hdone, hentries⟩ := hupdating.entries
  obtain ⟨hdump, hevents, hstored⟩ := entries_stored hw hs₀ hu hr e
  have hfnUuid : fn.uuid = s.uuid := congrArg SubscriptionDict.uuid hfn
  have hprevUuid : prev.fn.uuid = fn.uuid :=
    (hw.agreeing.agrees.consistent.uuid_eq hr).trans hfnUuid.symm
  have hstored' : w.handler.busConsumer.ofSubscription fn.uuid e = rowEntries prev e
      (bindingOf e (handleTenantEvents e (buildHeaders master s₀))) := by
    rw [hfnUuid]
    exact hstored
  refine ⟨fn, hfn, ?_⟩
  have hshown := hentries e
  change ((w.threads tasks).run master schedule).shared.entries s.uuid e = _ at hshown
  rw [hshown, ← hfnUuid]
  by_cases he : e ∈ order
  · exact duringUpdate_loop hprevUuid ho.1 he hstored' _ hdone
  · have hnot := mt (ho.2 e).mpr he
    rw [ofSubscription_updateLoop_part he hdone, hstored']
    exact .before

/-- A message that comes while an update is handled calls the callback of the stored version, of the
new one, of both or of none. One that the bindings of both versions let through calls none in some
schedule exactly when the loop comes to its event with the headers of the registry row, which need
not be those under which the event is bound, and both in some schedule exactly when it does not. -/
theorem message_during_update (d : BusDelivery) (m : Message) :
    let versions := fun schedule => d.versions serviceManager config
      ((w.threads tasks).run master schedule).shared m s.uuid
    let headers := loopHeaders order m.name (buildHeaders master s)
    (∀ schedule, (versions schedule).Sublist [dump s₀, dump s]) ∧
    (s₀.Asks master m → m.name ∈ s.events →
      Delivers (bindingOf m.name headers).arguments m.headers →
        ((∀ schedule, versions schedule ≠ []) ↔ headers ≠ prev.headers) ∧
        ((∀ schedule, (versions schedule).length ≤ 1) ↔ headers = prev.headers)) := by
  classical
  intro versions headers
  obtain ⟨hdump, hevents, -⟩ := entries_stored hw hs₀ hu hr m.name
  set old := bindingOf m.name (handleTenantEvents m.name (buildHeaders master s₀)) with hold
  have hversions : ∀ schedule, versions schedule =
      ((((w.threads tasks).run master schedule).shared.entries s.uuid m.name).filter fun entry =>
        Delivers entry.binding.arguments m.headers).map (·.handler.subscription) := by
    intro schedule
    obtain ⟨hx, hisolated⟩ := hw.isolated_run tasks schedule
    exact versions_eq hx hisolated d m s.uuid
  constructor
  · intro schedule
    obtain ⟨fn, hfn, hduring⟩ := duringUpdate_run hw hs₀ hu hr ho hi hothers schedule m.name
    rw [hversions schedule, ← hdump, ← hfn]
    exact (List.filter_sublist.trans hduring.sublist).map _
  · intro hasks hnew hdelivers
    have hdelivered : Delivers old.arguments m.headers :=
      (delivers_eventBinding_iff master hasks.event).mpr hasks
    -- Both entries let the message through.
    have hfound : ∀ {fn : Callback} {found : List (Entry Callback)},
        found.Sublist [⟨prev.fn, old⟩, ⟨fn, bindingOf m.name headers⟩] →
        (found.filter fun entry => Delivers entry.binding.arguments m.headers) = found := by
      intro fn found hsub
      refine List.filter_eq_self.mpr fun entry hentry => decide_eq_true ?_
      rcases List.mem_cons.mp (hsub.subset hentry) with rfl | hentry
      · exact hdelivered
      · rw [List.mem_singleton.mp hentry]
        exact hdelivers
    obtain ⟨schedule, fn, -, hbetween⟩ :=
      exists_betweenCalls_run hw hs₀ hu hr ho hi hnew hasks.event
    have hsome : versions schedule =
        (betweenCalls fn prev m.name headers old).map (·.handler.subscription) := by
      rw [hversions, hbetween, hfound (betweenCalls_sublist fn prev m.name headers old)]
    have hduring : ∀ schedule, ∃ fn : Callback, ∃ found,
        DuringUpdate s fn prev m.name headers old found ∧
          versions schedule = found.map (·.handler.subscription) := by
      intro schedule
      obtain ⟨fn, hfn, hduring⟩ := duringUpdate_run hw hs₀ hu hr ho hi hothers schedule m.name
      refine ⟨fn, _, hduring, ?_⟩
      rw [hversions, hfound hduring.sublist]
    constructor
    · constructor
      · intro hall hh
        apply hall schedule
        rw [hsome, betweenCalls, if_pos hh]
        rfl
      · intro hh schedule hnil
        obtain ⟨fn, found, hfoundDuring, heq⟩ := hduring schedule
        rw [heq, List.map_eq_nil_iff] at hnil
        exact hfoundDuring.ne_nil hnew (hevents ▸ hasks.event) hh hnil
    · constructor
      · intro hall
        by_contra hh
        have htwo := hall schedule
        rw [hsome, betweenCalls, if_neg hh] at htwo
        exact absurd htwo (by simp)
      · intro hh schedule
        obtain ⟨fn, found, hfoundDuring, heq⟩ := hduring schedule
        rw [heq, List.length_map]
        exact hfoundDuring.length_le hh

end Main

def storedMissedCall : Subscription := missedCallWorld.database.head (by decide)

/-- A missed call finds no callback when it comes between the two calls of an update of a name,
while another subscription is registered. -/
theorem message_during_update_missed_call :
    let d : BusDelivery := ⟨fun _ => "0b9d2d5e-4a62-4bd0-8b2b-7f3f6a2f8c05", fun _ _ => .ok ()⟩
    let tasks : Bool → List Notification := fun updates =>
      if updates then [.updated { storedMissedCall with name := "renamed" } ["user_missed_call"]]
      else [.created { voicemailSubscription with uuid := "c3a1f6b0-2f1e-4c59-8f0e-5d7a9b1e2f40" }]
    storedMissedCall.Asks "master" missedCallMessage ∧
      ∃ schedule, d.versions (fun _ => some ⟨"http.plugin", "Service"⟩) ⟨10, 2⟩
        ((missedCallWorld.threads tasks).run "master" schedule).shared missedCallMessage
        storedMissedCall.uuid = [] := by
  intro d tasks
  set renamed : Subscription := { storedMissedCall with name := "renamed" } with hrenamed
  have hasks : storedMissedCall.Asks "master" missedCallMessage := by
    refine ⟨by decide, ⟨_, rfl, rfl⟩, fun _ => ⟨_, rfl, rfl⟩, ?_, ?_⟩
    · intro wazoUuid h
      cases h
    · intro userUuid h
      cases h
  have hnew : Delivers (bindingOf missedCallMessage.name (loopHeaders ["user_missed_call"]
      missedCallMessage.name (buildHeaders "master" renamed))).arguments
        missedCallMessage.headers := by
    have hasksRenamed : renamed.Asks "master" missedCallMessage :=
      ⟨hasks.event, hasks.named, hasks.tenant, hasks.origin, hasks.user⟩
    have hsame : loopHeaders ["user_missed_call"] missedCallMessage.name
        (buildHeaders "master" renamed) = handleTenantEvents missedCallMessage.name
          (buildHeaders "master" renamed) := loopHeaders_cons_self [] _ _
    rw [hsame]
    exact (delivers_eventBinding_iff "master" (s := renamed) hasks.event).mpr hasksRenamed
  have hothers : ∀ j ≠ true, ∀ n ∈ tasks j, n.uuid ≠ renamed.uuid := by
    intro j hj n hn
    cases j with
    | true => exact absurd rfl hj
    | false =>
      rw [List.mem_singleton.mp hn]
      decide
  have hiteration : IsIteration ["user_missed_call"] renamed.events storedMissedCall.events := by
    decide
  have hstored : storedMissedCall ∈ missedCallWorld.database := List.head_mem _
  obtain ⟨-, hmissed⟩ := message_during_update (fun _ => some ⟨"http.plugin", "Service"⟩) ⟨10, 2⟩
    serving_missedCallWorld (s := renamed) hstored rfl rfl hiteration (i := true) rfl hothers d
    missedCallMessage
  refine ⟨hasks, ?_⟩
  by_contra hnone
  have hall := fun schedule hnil => hnone ⟨schedule, hnil⟩
  exact (hmissed hasks hasks.event hnew).1.mp hall (by decide)

end WazoWebhookd

import WazoWebhookd.Library.Run
import WazoWebhookd.Subscription.Router

/-! The incremental handler against registration from scratch, over whole histories of
notifications. -/
namespace WazoWebhookd
open KeyedList SubscriptionBusEventHandler

/-- The router together with the subscriptions its notifications have announced. -/
structure Tracked where
  handler : SubscriptionBusEventHandler
  live : List Subscription

/-- The subscriptions that exist after a notification, in their current version. -/
def liveAfter (live : List Subscription) : Notification → List Subscription
  | .created s => live ++ [s]
  | .updated s _ => live.map fun t => if t.uuid = s.uuid then s else t
  | .deleted s => live.filter fun t => t.uuid ≠ s.uuid

theorem uuid_updated (s t : Subscription) :
    (if t.uuid = s.uuid then s else t).uuid = t.uuid := by
  split_ifs with h
  · exact h.symm
  · rfl

theorem mem_liveAfter_updated {live : List Subscription} {s t : Subscription}
    (order : List String) : t ∈ liveAfter live (.updated s order) ↔
      (t = s ∧ ∃ u ∈ live, u.uuid = s.uuid) ∨ t ∈ live ∧ t.uuid ≠ s.uuid := by
  constructor
  · intro h
    obtain ⟨u, hu, rfl⟩ := List.mem_map.mp h
    by_cases hus : u.uuid = s.uuid
    · exact Or.inl ⟨if_pos hus, u, hu, hus⟩
    · rw [if_neg hus]
      exact Or.inr ⟨hu, hus⟩
  · rintro (⟨rfl, u, hu, hus⟩ | ⟨ht, hne⟩)
    · exact List.mem_map.mpr ⟨u, hu, if_pos hus⟩
    · exact List.mem_map.mpr ⟨t, ht, if_neg hne⟩

theorem exists_mem_liveAfter_updated {live : List Subscription} {u : Subscription} (hu : u ∈ live)
    (s : Subscription) (order : List String) :
    ∃ t ∈ liveAfter live (.updated s order), t.uuid = u.uuid :=
  ⟨_, List.mem_map_of_mem hu, uuid_updated s u⟩

theorem mem_liveAfter_deleted {live : List Subscription} {s t : Subscription} :
    t ∈ liveAfter live (.deleted s) ↔ t ∈ live ∧ t.uuid ≠ s.uuid :=
  List.mem_filter.trans (and_congr_right fun _ => decide_eq_true_iff)

theorem liveAfter_uuid_nodup {live : List Subscription} (hl : (live.map (·.uuid)).Nodup)
    (n : Notification) (hn : ∀ s, n = .created s → ∀ t ∈ live, t.uuid ≠ s.uuid) :
    ((liveAfter live n).map (·.uuid)).Nodup := by
  cases n with
  | created s =>
    rw [liveAfter, List.map_append, List.nodup_append]
    refine ⟨hl, by simp, ?_⟩
    intro uuid hm uuid' hm'
    obtain ⟨t, ht, rfl⟩ := List.mem_map.mp hm
    rw [List.mem_singleton.mp hm']
    exact hn s rfl t ht
  | updated s order =>
    have hmap : (liveAfter live (.updated s order)).map (·.uuid) = live.map (·.uuid) := by
      rw [liveAfter, List.map_map]
      exact List.map_congr_left fun t _ => uuid_updated s t
    rw [hmap]
    exact hl
  | deleted s => exact hl.sublist (List.filter_sublist.map _)

def Tracked.step (master : String) (σ : Tracked) (n : Notification) : Tracked :=
  match σ.handler.handle master n with
  | .ok h => ⟨h, liveAfter σ.live n⟩
  | .error _ => σ

def Tracked.init (exchangeType : String) : Tracked := ⟨.init exchangeType, []⟩

/-- A notification the service can send: a created subscription has a new uuid, an updated
or deleted one is registered, and the events of one subscription are distinct. -/
def Tracked.Valid (σ : Tracked) : Notification → Prop
  | .created s => s.events.Nodup ∧ ∀ t ∈ σ.live, t.uuid ≠ s.uuid
  | .updated s order => s.events.Nodup ∧
      ∃ t ∈ σ.live, t.uuid = s.uuid ∧ IsIteration order s.events t.events
  | .deleted s => ∃ t ∈ σ.live, t.uuid = s.uuid

/-- What can be told of an entry without the identity of its callback. -/
def Entry.content (entry : Entry Callback) : SubscriptionDict × Binding :=
  (entry.handler.subscription, entry.binding)

/-- The content registered for `s` under an event. -/
def freshContent (master : String) (s : Subscription) (e : String) :
    List (SubscriptionDict × Binding) :=
  if e ∈ s.events then [(dump s, bindingOf e (handleTenantEvents e (buildHeaders master s)))]
  else []

/-- Registration of the live subscriptions by a new handler. -/
def scratch (master exchangeType : String) (live : List Subscription) :
    SubscriptionBusEventHandler :=
  live.foldl (register master) (.init exchangeType)

/-- The table holds what a registration from scratch would hold. -/
def Tracked.Exact (master exchangeType : String) (σ : Tracked) : Prop :=
  ∀ e, ((σ.handler.busConsumer.subscriptions e).map Entry.content).Perm
    (((scratch master exchangeType σ.live).busConsumer.subscriptions e).map Entry.content)

/-- Unless its user is `*`, no event of the subscription comes after the global voicemail
event in the iteration. -/
def KeepsHeaders : Notification → Prop
  | .updated s order =>
    s.eventsUserUuid = some "*" ∨ ∀ e ∈ s.events, ¬ AfterGlobalVoicemail order e
  | _ => True

theorem subscriptions_register (master : String) (h : SubscriptionBusEventHandler)
    {s : Subscription} (hn : s.events.Nodup) (e : String) :
    ((h.register master s).busConsumer.subscriptions e).map Entry.content =
      (h.busConsumer.subscriptions e).map Entry.content ++ freshContent master s e := by
  have hcalls : ∀ (fn : Callback) (events : List String) (c : Consumer Callback), events.Nodup →
      ((registerCalls fn (buildHeaders master s) events).foldl Consumer.call c).subscriptions e =
        c.subscriptions e ++ if e ∈ events
          then [⟨fn, bindingOf e (handleTenantEvents e (buildHeaders master s))⟩] else [] := by
    intro fn events
    induction events with
    | nil => simp [registerCalls]
    | cons event events ih =>
      intro c hnd
      obtain ⟨hnot, hn'⟩ := List.nodup_cons.mp hnd
      simp only [registerCalls, List.map_cons, List.foldl_cons] at ih ⊢
      rw [ih _ hn', Consumer.call, Consumer.subscribe_subscriptions]
      by_cases he : e = event
      · subst he
        simp [hnot]
      · simp [he]
  rw [register_eq]
  simp only [hcalls _ _ _ hn, List.map_append]
  by_cases he : e ∈ s.events <;> simp [freshContent, he, Entry.content, newRow]

/-- Registration from scratch gives, for each live subscription and each of its events, one
entry with its dump and its headers for the event, and no other entry. -/
theorem scratch_subscriptions (master exchangeType : String) {live : List Subscription}
    (hn : ∀ s ∈ live, s.events.Nodup) (e : String) :
    ((scratch master exchangeType live).busConsumer.subscriptions e).map Entry.content =
      live.flatMap fun s => freshContent master s e := by
  have hfold : ∀ h : SubscriptionBusEventHandler,
      ((live.foldl (register master) h).busConsumer.subscriptions e).map Entry.content =
        (h.busConsumer.subscriptions e).map Entry.content ++
          live.flatMap fun s => freshContent master s e := by
    induction live with
    | nil => simp
    | cons s live ih =>
      intro h
      have hrest := ih fun t ht => hn t (List.mem_cons_of_mem _ ht)
      rw [List.foldl_cons, hrest, subscriptions_register master h (hn s List.mem_cons_self),
        List.flatMap_cons, List.append_assoc]
  exact hfold (.init exchangeType)

/-- The live subscriptions are those of the registry, in the version it holds. -/
structure Tracked.Agrees (σ : Tracked) : Prop where
  consistent : Consistent σ.handler
  uuid_nodup : (σ.live.map (·.uuid)).Nodup
  row : ∀ s ∈ σ.live, ∃ row, σ.handler.subscriptionCallbacks s.uuid = some row ∧
    row.fn.subscription = dump s ∧ row.events = s.events
  live : ∀ {uuid row}, σ.handler.subscriptionCallbacks uuid = some row →
    ∃ s ∈ σ.live, s.uuid = uuid

theorem Tracked.Agrees.events_nodup {σ : Tracked} (ha : σ.Agrees) {s : Subscription}
    (hs : s ∈ σ.live) : s.events.Nodup := by
  obtain ⟨row, hr, -, he⟩ := ha.row s hs
  exact he ▸ ha.consistent.nodup hr

theorem Tracked.Agrees.unregistered {σ : Tracked} (ha : σ.Agrees) {uuid : String}
    (h : ∀ t ∈ σ.live, t.uuid ≠ uuid) : σ.handler.subscriptionCallbacks uuid = none := by
  cases hr : σ.handler.subscriptionCallbacks uuid with
  | none => rfl
  | some row =>
    obtain ⟨t, ht, hu⟩ := ha.live hr
    exact absurd hu (h t ht)

theorem ofKey_content (h : SubscriptionBusEventHandler) (uuid e : String) :
    ofKey (fun c => c.1.uuid) uuid ((h.busConsumer.subscriptions e).map Entry.content) =
      (h.entries uuid e).map Entry.content :=
  ofKey_map (fun c : SubscriptionDict × Binding => c.1.uuid) Entry.content uuid _

theorem uuid_of_mem_freshContent {master : String} {s : Subscription} {e : String}
    {c : SubscriptionDict × Binding} (h : c ∈ freshContent master s e) : c.1.uuid = s.uuid := by
  unfold freshContent at h
  split_ifs at h
  · rw [List.mem_singleton.mp h]
    rfl
  · cases h

theorem ofKey_flatMap_freshContent_of_ne (master : String) {live : List Subscription}
    {uuid : String} (h : ∀ t ∈ live, t.uuid ≠ uuid) (e : String) :
    ofKey (fun c => c.1.uuid) uuid (live.flatMap fun t => freshContent master t e) = [] := by
  rw [ofKey, List.filter_eq_nil_iff]
  intro c hc
  obtain ⟨t, ht, hct⟩ := List.mem_flatMap.mp hc
  have hne := h t ht
  rw [← uuid_of_mem_freshContent hct] at hne
  simpa using hne

theorem ofKey_flatMap_freshContent (master : String) {live : List Subscription}
    (hn : (live.map (·.uuid)).Nodup) {s : Subscription} (hs : s ∈ live) (e : String) :
    ofKey (fun c => c.1.uuid) s.uuid (live.flatMap fun t => freshContent master t e) =
      freshContent master s e := by
  induction live with
  | nil => cases hs
  | cons t live ih =>
    obtain ⟨hnot, hn'⟩ := List.nodup_cons.mp hn
    have hnot' : ∀ t' ∈ live, t'.uuid ≠ t.uuid := fun t' ht' h =>
      hnot (List.mem_map.mpr ⟨t', ht', h⟩)
    rw [List.flatMap_cons, ofKey_append]
    rcases List.mem_cons.mp hs with rfl | hs'
    · have hself : ofKey (fun c => c.1.uuid) s.uuid (freshContent master s e) =
          freshContent master s e :=
        List.filter_eq_self.mpr fun c hc => by simpa using uuid_of_mem_freshContent hc
      rw [hself, ofKey_flatMap_freshContent_of_ne master hnot', List.append_nil]
    · have hother : ofKey (fun c => c.1.uuid) s.uuid (freshContent master t e) = [] := by
        rw [ofKey, List.filter_eq_nil_iff]
        intro c hc
        have hu := uuid_of_mem_freshContent hc
        simpa [hu] using (hnot' s hs').symm
      rw [hother, List.nil_append, ih hn' hs']

/-- Exactness of the table is exactness for each live subscription and each event. -/
theorem Tracked.Agrees.exact_iff {σ : Tracked} (ha : σ.Agrees) (master exchangeType : String) :
    σ.Exact master exchangeType ↔ ∀ s ∈ σ.live, ∀ e,
      (σ.handler.entries s.uuid e).map Entry.content = freshContent master s e := by
  have hscratch := scratch_subscriptions master exchangeType fun s hs => ha.events_nodup hs
  constructor
  · intro hx s hs e
    have hperm := ofKey_perm (fun c : SubscriptionDict × Binding => c.1.uuid) (hx e) s.uuid
    rw [hscratch, ofKey_content, ofKey_flatMap_freshContent master ha.uuid_nodup hs] at hperm
    -- Both lists have at most one element.
    unfold freshContent at hperm ⊢
    split_ifs at hperm ⊢
    · exact List.perm_singleton.mp hperm
    · exact List.perm_nil.mp hperm
  · intro hall e
    refine perm_of_ofKey (fun c : SubscriptionDict × Binding => c.1.uuid) fun uuid => ?_
    rw [hscratch, ofKey_content]
    by_cases hl : ∃ s ∈ σ.live, s.uuid = uuid
    · obtain ⟨s, hs, rfl⟩ := hl
      rw [hall s hs e, ofKey_flatMap_freshContent master ha.uuid_nodup hs]
    · have hne : ∀ t ∈ σ.live, t.uuid ≠ uuid := fun t ht h => hl ⟨t, ht, h⟩
      have hnone := ha.unregistered hne
      rw [ha.consistent.entries_none hnone, ofKey_flatMap_freshContent_of_ne master hne]
      rfl

section Step
variable (master : String) {σ : Tracked}

theorem Tracked.Agrees.step_created (ha : σ.Agrees) {s : Subscription}
    (hv : σ.Valid (.created s)) : (σ.step master (.created s)).Agrees := by
  have hr := ha.unregistered hv.2
  have hcb := register_subscriptionCallbacks master σ.handler s
  constructor
  · exact ha.consistent.register master (ha.consistent.entries_none hr) hv.1
  · refine liveAfter_uuid_nodup ha.uuid_nodup (.created s) ?_
    rintro s' ⟨⟩
    exact hv.2
  · intro t ht
    rcases List.mem_append.mp ht with hl | hl
    · obtain ⟨row, hrow⟩ := ha.row t hl
      exact ⟨row, (hcb t.uuid).trans ((if_neg (hv.2 t hl)).trans hrow.1), hrow.2⟩
    · rw [List.mem_singleton.mp hl]
      exact ⟨newRow master σ.handler s, (hcb s.uuid).trans (if_pos rfl), rfl, rfl⟩
  · intro uuid row hrow
    have hrow' := (hcb uuid).symm.trans hrow
    split_ifs at hrow' with hu
    · exact ⟨s, List.mem_append_right _ List.mem_cons_self, hu.symm⟩
    · obtain ⟨t, ht, htu⟩ := ha.live hrow'
      exact ⟨t, List.mem_append_left _ ht, htu⟩

theorem Tracked.Agrees.step_deleted (ha : σ.Agrees) (s : Subscription) :
    (σ.step master (.deleted s)).Agrees := by
  have hcb := unregister_subscriptionCallbacks σ.handler s
  constructor
  · exact ha.consistent.unregister
  · exact liveAfter_uuid_nodup ha.uuid_nodup (.deleted s) (by rintro s' ⟨⟩)
  · intro t ht
    obtain ⟨hl, hne⟩ := mem_liveAfter_deleted.mp ht
    obtain ⟨row, hrow⟩ := ha.row t hl
    exact ⟨row, (hcb t.uuid).trans ((if_neg hne).trans hrow.1), hrow.2⟩
  · intro uuid row hrow
    have hrow' := (hcb uuid).symm.trans hrow
    split_ifs at hrow' with hu
    obtain ⟨t, ht, htu⟩ := ha.live hrow'
    exact ⟨t, mem_liveAfter_deleted.mpr ⟨ht, htu ▸ hu⟩, htu⟩

/-- The state after an update, and the entries it gives the updated subscription. -/
theorem Tracked.Agrees.step_updated (ha : σ.Agrees) {s : Subscription} {order : List String}
    (hv : σ.Valid (.updated s order)) :
    (σ.step master (.updated s order)).Agrees ∧
      (σ.step master (.updated s order)).live = liveAfter σ.live (.updated s order) ∧
      (∀ t ∈ σ.live, t.uuid ≠ s.uuid → ∀ e, (σ.step master (.updated s order)).handler.entries
        t.uuid e = σ.handler.entries t.uuid e) ∧
      ∀ e, ((σ.step master (.updated s order)).handler.entries s.uuid e).map Entry.content =
        if e ∈ s.events then
          [(dump s, bindingOf e (loopHeaders order e (buildHeaders master s)))] else [] := by
  obtain ⟨hn, t, ht, htu, ho⟩ := hv
  obtain ⟨prev, hprev, -, hpe⟩ := ha.row t ht
  rw [htu] at hprev
  rw [← hpe] at ho
  obtain ⟨h', headers, hok, -, -, hcb, hother, hown⟩ :=
    ha.consistent.update_spec master hprev ho
  have hstep : σ.step master (.updated s order) = ⟨h', liveAfter σ.live (.updated s order)⟩ := by
    simp only [Tracked.step, handle, hok]
  rw [hstep]
  refine ⟨⟨?_, ?_, ?_, ?_⟩, rfl, fun t _ htu e => hother _ htu e, ?_⟩
  · exact ha.consistent.update master hprev ho hn hok
  · exact liveAfter_uuid_nodup ha.uuid_nodup (.updated s order) (by rintro s' ⟨⟩)
  · intro t' ht'
    have hmem : t' ∈ liveAfter σ.live (.updated s order) := ht'
    rw [hcb]
    rcases (mem_liveAfter_updated order).mp hmem with ⟨rfl, -⟩ | ⟨hl, hne⟩
    · exact ⟨_, Function.update_self _ _ _, rfl, rfl⟩
    · rw [Function.update_of_ne hne]
      exact ha.row t' hl
  · intro uuid row hrow
    rw [hcb, Function.update_apply] at hrow
    have hex : ∃ u ∈ σ.live, u.uuid = uuid := by
      split_ifs at hrow with hus
      · exact ⟨t, ht, htu.trans hus.symm⟩
      · exact ha.live hrow
    obtain ⟨u, hu, rfl⟩ := hex
    exact exists_mem_liveAfter_updated hu s order
  · intro e
    rw [hown e]
    by_cases he : e ∈ s.events <;> simp [rowEntries, he, Entry.content, newFn]

theorem Tracked.Agrees.step (ha : σ.Agrees) {n : Notification} (hv : σ.Valid n) :
    (σ.step master n).Agrees := by
  cases n with
  | created s => exact ha.step_created master hv
  | updated s order => exact (ha.step_updated master hv).1
  | deleted s => exact ha.step_deleted master s

/-- The loop reaches an event with the headers of a fresh registration exactly when it
does not come after the global voicemail event. -/
theorem loopHeaders_fresh_iff (s : Subscription) (order : List String)
    (e : String) :
    bindingOf e (loopHeaders order e (buildHeaders master s)) =
        bindingOf e (handleTenantEvents e (buildHeaders master s)) ↔
      s.eventsUserUuid = some "*" ∨ ¬ AfterGlobalVoicemail order e := by
  have hbuild := name_notMem_buildHeaders master s
  have hname : "name" ∉ rewriteUserHeaders (buildHeaders master s) := by
    rw [← Finmap.lookup_eq_none, lookup_rewriteUserHeaders_of_not (by decide)]
    exact Finmap.lookup_eq_none.mpr hbuild
  unfold loopHeaders
  by_cases hm : AfterGlobalVoicemail order e
  · rw [if_pos hm, handleTenantEvents_of_ne hm.ne, bindingOf_inj hname hbuild,
      rewriteUserHeaders_buildHeaders_eq_iff]
    exact (or_iff_left (not_not.mpr hm)).symm
  · rw [if_neg hm]
    exact iff_of_true rfl (Or.inr hm)

/-- One notification keeps the table exact exactly when it keeps the headers. -/
theorem Tracked.Agrees.exact_step_iff (ha : σ.Agrees) {exchangeType : String}
    (hx : σ.Exact master exchangeType) {n : Notification} (hv : σ.Valid n) :
    (σ.step master n).Exact master exchangeType ↔ KeepsHeaders n := by
  have hx' := (ha.exact_iff master exchangeType).mp hx
  rw [(ha.step master hv).exact_iff]
  cases n with
  | created s =>
    refine iff_of_true ?_ trivial
    intro t ht e
    have hr := ha.unregistered hv.2
    rcases List.mem_append.mp ht with hl | hl
    · have hne := entries_register_of_ne master (h := σ.handler) hv.1 (hv.2 t hl) e
      exact (congrArg _ hne).trans (hx' t hl e)
    · rw [List.mem_singleton.mp hl]
      have hnew := entries_register_of_nil master (ha.consistent.entries_none hr e) hv.1
      refine (congrArg _ hnew).trans ?_
      by_cases he : e ∈ s.events <;>
        simp [rowEntries, freshContent, newRow, Entry.content, he]
  | updated s order =>
    obtain ⟨-, hlive, hother, hown⟩ := ha.step_updated master hv
    have hmem : s ∈ liveAfter σ.live (.updated s order) := by
      obtain ⟨-, t, ht, htu, -⟩ := hv
      exact (mem_liveAfter_updated order).mpr (Or.inl ⟨rfl, t, ht, htu⟩)
    have hpoint : ∀ e, ((σ.step master (.updated s order)).handler.entries s.uuid e).map
        Entry.content = freshContent master s e ↔
          (e ∈ s.events → s.eventsUserUuid = some "*" ∨ ¬ AfterGlobalVoicemail order e) := by
      intro e
      have hfresh := loopHeaders_fresh_iff master s order e
      rw [hown, freshContent]
      by_cases he : e ∈ s.events
      · simpa [he] using hfresh
      · simp [he]
    have hs : (∀ e, ((σ.step master (.updated s order)).handler.entries s.uuid e).map
        Entry.content = freshContent master s e) ↔ KeepsHeaders (.updated s order) := by
      change _ ↔ (_ ∨ ∀ e ∈ s.events, ¬ AfterGlobalVoicemail order e)
      simp only [hpoint]
      constructor
      · intro h
        by_cases hu : s.eventsUserUuid = some "*"
        · exact Or.inl hu
        · exact Or.inr fun e he => (h e he).resolve_left hu
      · intro h e he
        exact h.imp id fun hall => hall e he
    rw [← hs, hlive]
    constructor
    · intro h
      exact h s hmem
    · intro h t ht e
      rcases (mem_liveAfter_updated order).mp ht with ⟨rfl, -⟩ | ⟨hl, hne⟩
      · exact h e
      · rw [hother t hl hne]
        exact hx' t hl e
  | deleted s =>
    refine iff_of_true ?_ trivial
    intro t ht e
    obtain ⟨hl, hne⟩ := mem_liveAfter_deleted.mp ht
    have hother := entries_unregister_of_ne (s := s) ha.consistent hne e
    exact (congrArg _ hother).trans (hx' t hl e)

end Step

theorem Tracked.agrees_init (exchangeType : String) : (Tracked.init exchangeType).Agrees where
  consistent := consistent_init exchangeType
  uuid_nodup := List.nodup_nil
  row _ h := by cases h
  live h := by cases h

theorem Tracked.exact_init (master exchangeType : String) :
    (Tracked.init exchangeType).Exact master exchangeType := fun _ => List.Perm.refl _

/-- After every notification the table is what a registration from scratch would give,
exactly when no update reaches one of its events after the global voicemail event. -/
theorem history_exact_iff (master exchangeType : String) (history : List Notification)
    (hv : Run.Along (Tracked.step master) Tracked.Valid (.init exchangeType) history) :
    Run.Always (Tracked.step master) (Tracked.Exact master exchangeType) (.init exchangeType)
        history ↔ ∀ n ∈ history, KeepsHeaders n := by
  have hlabel : Run.Along (Tracked.step master) (fun _ n => KeepsHeaders n) (.init exchangeType)
      history ↔ ∀ n ∈ history, KeepsHeaders n := Run.along_label
  rw [← hlabel]
  refine Run.always_iff_along (J := Tracked.Agrees) ?_ ?_ (Tracked.agrees_init _)
    (Tracked.exact_init master exchangeType) hv
  · intro σ n ha hn
    exact ha.step master hn
  · intro σ n ha hx hn
    exact ha.exact_step_iff master hx hn

/-- A subscription to the global voicemail event and to another one, for one user. -/
def voicemailSubscription : Subscription where
  uuid := "8b6d3f5e-0d3f-4f0e-9a53-3b8b1d3f5e01"
  name := "voicemail"
  service := "http"
  eventsUserUuid := some "2d2c6fd6-41cb-4c8f-95a0-6b2f4f6f1c02"
  eventsWazoUuid := none
  ownerUserUuid := none
  ownerTenantUuid := "6c6d3b6c-58cb-4f5c-9a0e-0f1f0c1f7a03"
  eventsRel := [⟨globalVoicemailMessageCreated⟩, ⟨"user_missed_call"⟩]
  optionsRel := [⟨"method", some "get"⟩, ⟨"url", some "http://localhost/"⟩]
  metadataRel := []

/-- An update that reaches the global voicemail event last keeps the table exact. -/
theorem history_exact_iff_voicemail_last :
    Run.Always (Tracked.step "master") (Tracked.Exact "master" "headers") (.init "headers")
      [.created voicemailSubscription,
        .updated voicemailSubscription ["user_missed_call", globalVoicemailMessageCreated]] := by
  refine (history_exact_iff "master" "headers" _ ?_).mpr ?_
  · refine ⟨⟨by decide, by decide⟩, ⟨by decide, ?_⟩, trivial⟩
    exact ⟨voicemailSubscription, List.mem_cons_self, rfl, by decide⟩
  · intro n hn
    rcases List.mem_cons.mp hn with rfl | hn
    · trivial
    · rw [List.mem_singleton.mp hn]
      exact Or.inr (by decide)

def missedHistory : List Notification :=
  [.created voicemailSubscription,
    .updated voicemailSubscription [globalVoicemailMessageCreated, "user_missed_call"]]

/-- The loop subscribes the missed call with the headers of the voicemail event. -/
theorem missedHistory_not_exact :
    Run.Along (Tracked.step "master") Tracked.Valid (.init "headers") missedHistory ∧
      ¬ (missedHistory.foldl (Tracked.step "master") (.init "headers")).Exact
        "master" "headers" := by
  constructor
  · refine ⟨⟨by decide, by decide⟩, ⟨by decide, ?_⟩, trivial⟩
    exact ⟨voicemailSubscription, List.mem_cons_self, rfl, by decide⟩
  · intro h
    have := h "user_missed_call"
    revert this
    decide

end WazoWebhookd

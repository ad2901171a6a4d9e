import WazoWebhookd.Bus.PrivateQueues
import WazoWebhookd.Subscription.Enqueuing
import WazoWebhookd.Subscription.FreshRegistration

/-! What a subscription asks for, said of a message alone, against the bindings with which the
router registers it and the hooks that a dispatch then enqueues. -/
namespace WazoWebhookd
open HeadersExchange

def Subscription.userOf (s : Subscription) (event : String) : Option String :=
  if event = globalVoicemailMessageCreated then some "*" else truthy s.eventsUserUuid

/-- The subscription wants a hook for the message: its event is one of the subscribed ones, and
it comes from the tenant, the origin and the user that the subscription names. -/
structure Subscription.Asks (masterTenantUuid : String) (s : Subscription) (m : Message) :
    Prop where
  event : m.name ∈ s.events
  named : Meets m.headers "name" (.str m.name)
  tenant : s.ownerTenantUuid ≠ masterTenantUuid →
    Meets m.headers "tenant_uuid" (.str s.ownerTenantUuid)
  origin : ∀ wazoUuid, truthy s.eventsWazoUuid = some wazoUuid →
    Meets m.headers "origin_uuid" (.str wazoUuid)
  user : ∀ userUuid, s.userOf m.name = some userUuid →
    Meets m.headers ("user_uuid:" ++ userUuid) (.bool true)

theorem not_internal_userKey (u : String) : ¬ startswith ("user_uuid:" ++ u) "x-" := by
  intro h
  unfold startswith at h
  rw [String.toList_append] at h
  have hshort := List.prefix_of_prefix_length_le h (List.prefix_append _ _) (by decide)
  exact absurd hshort (by decide)

theorem lookup_eventHeaders (master : String) (s : Subscription) (event k : String) :
    (handleTenantEvents event (buildHeaders master s)).lookup k =
      if k = "x-subscription" then some (.str s.uuid)
      else if k = "tenant_uuid" then
        if s.ownerTenantUuid = master then none else some (.str s.ownerTenantUuid)
      else if k = "origin_uuid" then (truthy s.eventsWazoUuid).map .str
      else if (s.userOf event).map ("user_uuid:" ++ ·) = some k
        then some (.bool true) else none := by
  by_cases he : event = globalVoicemailMessageCreated
  · subst he
    change (rewriteUserHeaders (buildHeaders master s)).lookup k = _
    rw [lookup_rewriteUserHeaders, lookup_buildHeaders, Subscription.userOf, if_pos rfl]
    by_cases hu : startswith k "user_uuid:"
    · have h1 : k ≠ "x-subscription" := by rintro rfl; revert hu; decide
      have h2 : k ≠ "tenant_uuid" := by rintro rfl; revert hu; decide
      have h3 : k ≠ "origin_uuid" := by rintro rfl; revert hu; decide
      have hstar : "user_uuid:" ++ "*" = "user_uuid:*" := by decide
      simp [hu, h1, h2, h3, hstar, eq_comm]
    · have hne : ∀ u : String, "user_uuid:" ++ u ≠ k := fun u => ne_userKey hu u
      have hstar : "user_uuid:*" ≠ k := by
        rintro rfl
        exact hu (by decide)
      cases truthy s.eventsUserUuid <;> simp [hu, hne, hstar, hstar.symm]
  · rw [handleTenantEvents_of_ne he, lookup_buildHeaders, Subscription.userOf, if_neg he]

theorem lookup_eventBinding (master : String) (s : Subscription) (event k : String) :
    (bindingOf event (handleTenantEvents event (buildHeaders master s))).arguments.lookup k =
      if k = "name" then some (.str event)
      else (handleTenantEvents event (buildHeaders master s)).lookup k := by
  rw [bindingOf]
  split_ifs with hk
  · rw [hk, Finmap.lookup_insert]
  · rw [Finmap.lookup_insert_of_ne _ hk]

/-- Such a binding has no `x-match`: all of its arguments have to be met. -/
theorem matchMode_eventBinding (master : String) (s : Subscription) (event : String) :
    matchMode (bindingOf event (handleTenantEvents event (buildHeaders master s))).arguments =
      some .all := by
  have hu := ne_userKey (k := "x-match") (by decide)
  unfold matchMode
  rw [lookup_eventBinding, lookup_eventHeaders]
  simp [hu]

/-- The binding of an event lets through what the subscription asks for, and nothing else. -/
theorem delivers_eventBinding_iff (master : String) {s : Subscription} {m : Message}
    (he : m.name ∈ s.events) :
    Delivers (bindingOf m.name (handleTenantEvents m.name (buildHeaders master s))).arguments
      m.headers ↔ s.Asks master m := by
  have hn : ¬ startswith "name" "x-" := by decide
  have ht : ¬ startswith "tenant_uuid" "x-" := by decide
  have ho : ¬ startswith "origin_uuid" "x-" := by decide
  unfold Delivers
  rw [matchMode_eventBinding]
  simp only [lookup_eventBinding, lookup_eventHeaders]
  constructor
  · intro h
    constructor
    · exact he
    · exact h "name" _ (by simp) hn
    · intro hne
      exact h "tenant_uuid" _ (by simp [hne]) ht
    · intro wazoUuid hwazo
      exact h "origin_uuid" _ (by simp [hwazo]) ho
    · intro userUuid huser
      have h1 := ne_userKey (k := "name") (by decide) userUuid
      have h2 := ne_userKey (k := "x-subscription") (by decide) userUuid
      have h3 := ne_userKey (k := "tenant_uuid") (by decide) userUuid
      have h4 := ne_userKey (k := "origin_uuid") (by decide) userUuid
      exact h _ _ (by simp [h1, h2, h3, h4, huser]) (not_internal_userKey userUuid)
  · intro h k v hl hk
    split_ifs at hl with h1 h2 h3 h4 h5 h6
    · cases hl
      exact h1 ▸ h.named
    · exact absurd (h2 ▸ (by decide : startswith "x-subscription" "x-")) hk
    · cases hl
      exact h3 ▸ h.tenant h4
    · obtain ⟨wazoUuid, hwazo, rfl⟩ := Option.map_eq_some_iff.mp hl
      exact h5 ▸ h.origin wazoUuid hwazo
    · cases hl
      obtain ⟨userUuid, huser, rfl⟩ := Option.map_eq_some_iff.mp h6
      exact h.user userUuid huser

/-- What a task of `hook_runner_task` is about, without the uuid made up for it. -/
structure Hook where
  entryPointName : String
  config : HookConfig
  subscription : SubscriptionDict
  event : Json

def HookRunnerArgs.hook (args : HookRunnerArgs) : Hook :=
  ⟨args.entryPointName, args.config, args.subscription, args.event⟩

section Hooks
variable (serviceManager : String → Option EntryPoint) (config : HookConfig)

/-- The hook of a subscription for an event; there is none without a plugin for its service. -/
def hookOf (subscription : SubscriptionDict) (event : Json) : Option Hook :=
  (serviceManager subscription.service).map fun entryPoint =>
    ⟨entryPoint.moduleName ++ ":" ++ entryPoint.attr, config, subscription, event⟩

def hookRunnerArgs (hookUuid : String) (subscription : SubscriptionDict) (event : Json) :
    Option HookRunnerArgs :=
  (hookOf serviceManager config subscription event).map fun hook =>
    ⟨hookUuid, hook.entryPointName, hook.config, hook.subscription, hook.event⟩

/-- The callback hands these arguments to the task queue, once, and nothing else to it. -/
theorem callback_eq (hookUuid : String) (delay : HookRunnerArgs → Except EnqueueError Unit)
    (subscription : SubscriptionDict) (event : Json) :
    callback serviceManager config hookUuid delay subscription event =
      match hookRunnerArgs serviceManager config hookUuid subscription event with
      | none => .ok ()
      | some args => delay args := by
  unfold callback hookRunnerArgs hookOf
  cases serviceManager subscription.service with
  | none => rfl
  | some entryPoint =>
    dsimp only [Option.map_some]
    split
    · next h => exact h.symm
    · next h => exact h.symm
    · next h => exact h.symm

def BusDelivery.submitted (d : BusDelivery) (invoked : List (Entry Callback × HandlerArgs Json)) :
    List HookRunnerArgs :=
  invoked.zipIdx.filterMap fun call =>
    hookRunnerArgs serviceManager config (d.hookUuid call.2) call.1.1.handler.subscription
      call.1.2.event

variable {serviceManager config}

theorem hookRunnerArgs_eq_some {hookUuid : String} {subscription : SubscriptionDict}
    {event : Json} {args : HookRunnerArgs}
    (h : hookRunnerArgs serviceManager config hookUuid subscription event = some args) :
    args.hookUuid = hookUuid ∧ hookOf serviceManager config subscription event =
      some args.hook := by
  obtain ⟨hook, hhook, rfl⟩ := Option.map_eq_some_iff.mp h
  exact ⟨rfl, hhook⟩

/-- A dispatch calls the callbacks that match, with the payload alone. -/
theorem dispatchLoop_calls {F P ε : Type*} (call : ℕ → F → HandlerArgs P → Except ε Unit)
    (exchangeType : String) (payload : P) (headers : Option Headers) (entries : List (Entry F))
    (i : ℕ) {done : Dispatched F P ε}
    (h : dispatchLoop (fun _ => false) call exchangeType payload headers i entries = .ok done) :
    done.invoked = (entries.filter fun entry =>
      (checkHeadersMatch exchangeType headers entry.binding).toOption = some true).map
        fun entry => (entry, .payload payload) := by
  induction entries generalizing i done with
  | nil =>
    cases h
    rfl
  | cons entry rest ih =>
    rw [dispatchLoop] at h
    split at h
    · cases h
    · next hcheck =>
      rw [ih i h, List.filter_cons_of_neg (by simp [hcheck, Except.toOption])]
    · next hcheck =>
      dsimp only at h
      split at h
      · cases h
      · next after hafter =>
        rw [List.filter_cons_of_pos (by simp [hcheck, Except.toOption]), List.map_cons,
          ← ih (i + 1) hafter]
        split at h <;> cases h <;> rfl

/-- The hooks of a dispatch, one for each callback called whose service has a plugin. -/
theorem submitted_hooks (d : BusDelivery) {invoked : List (Entry Callback × HandlerArgs Json)}
    {payload : Json} (h : ∀ invocation ∈ invoked, invocation.2 = .payload payload) :
    (d.submitted serviceManager config invoked).map HookRunnerArgs.hook =
      (invoked.map Prod.fst).filterMap fun entry =>
        hookOf serviceManager config entry.handler.subscription payload := by
  have hcall : ∀ call ∈ invoked.zipIdx, (hookRunnerArgs serviceManager config
      (d.hookUuid call.2) call.1.1.handler.subscription call.1.2.event).map HookRunnerArgs.hook =
        hookOf serviceManager config call.1.1.handler.subscription payload := by
    intro call hin
    have hargs := h call.1 (List.fst_mem_of_mem_zipIdx hin)
    rw [hargs, hookRunnerArgs, Option.map_map]
    exact Option.map_id_apply
  have hindexed : (invoked.zipIdx.map Prod.fst).map Prod.fst = invoked.map Prod.fst := by
    rw [List.zipIdx_map_fst]
  rw [BusDelivery.submitted, List.map_filterMap, List.filterMap_congr hcall, ← hindexed,
    List.filterMap_map, List.filterMap_map]
  rfl

theorem map_filterMap_sublist {α β γ : Type*} {f : α → Option β} {h : β → γ} {g : α → γ}
    (hf : ∀ a b, f a = some b → h b = g a) (l : List α) :
    ((l.filterMap f).map h).Sublist (l.map g) := by
  induction l with
  | nil => exact List.Sublist.refl _
  | cons a l ih =>
    cases ha : f a with
    | none =>
      rw [List.filterMap_cons_none ha]
      exact ih.cons _
    | some b =>
      rw [List.filterMap_cons_some ha, List.map_cons, List.map_cons, hf a b ha]
      exact ih.cons_cons _

/-- No two tasks of a dispatch share a uuid when the generated ones are distinct. -/
theorem submitted_uuids_nodup {d : BusDelivery} (hd : Function.Injective d.hookUuid)
    (invoked : List (Entry Callback × HandlerArgs Json)) :
    ((d.submitted serviceManager config invoked).map HookRunnerArgs.hookUuid).Nodup := by
  have hsub : ((d.submitted serviceManager config invoked).map HookRunnerArgs.hookUuid).Sublist
      ((invoked.zipIdx.map Prod.snd).map d.hookUuid) := by
    rw [BusDelivery.submitted, List.map_map]
    refine map_filterMap_sublist (fun call args hargs => ?_) _
    exact (hookRunnerArgs_eq_some hargs).1
  have hindices : (invoked.zipIdx.map Prod.snd).Nodup := by
    rw [List.zipIdx_map_snd]
    exact List.nodup_range'
  exact (hindices.map hd).sublist hsub

end Hooks

open Classical in
/-- What the registrations from scratch let through of a message: the subscriptions that ask. -/
theorem collect_freshContent {α : Type*} (master : String) (m : Message) (live : List Subscription)
    (hook : SubscriptionDict → Option α) :
    ((live.flatMap fun s => freshContent master s m.name).filter
        fun c => Delivers c.2.arguments m.headers).filterMap (fun c => hook c.1) =
      (live.filter fun s => s.Asks master m).filterMap fun s => hook (dump s) := by
  induction live with
  | nil => rfl
  | cons s live ih =>
    rw [List.flatMap_cons, List.filter_append, List.filterMap_append, ih, List.filter_cons,
      freshContent]
    by_cases he : m.name ∈ s.events
    · have hasks := delivers_eventBinding_iff master he
      by_cases ha : s.Asks master m
      · rw [if_pos he, if_pos (decide_eq_true ha), List.filter_singleton,
          decide_eq_true (hasks.mpr ha)]
        simp only [cond_true, List.filterMap_cons, List.filterMap_nil]
        cases hook (dump s) <;> rfl
      · rw [if_pos he, if_neg (by simpa using ha), List.filter_singleton,
          decide_eq_false (mt hasks.mp ha)]
        rfl
    · have ha : ¬ s.Asks master m := fun ha => he ha.event
      rw [if_neg he, if_neg (by simpa using ha)]
      rfl

section Exact
variable {serviceManager : String → Option EntryPoint} {config : HookConfig} {master : String}

open Classical in
/-- A dispatch through an exact table hands to the task queue one hook for each live subscription
that asks for the message and whose service has a plugin, whatever the task queue answers. -/
theorem Tracked.Agrees.dispatch_hooks {σ : Tracked} (ha : σ.Agrees)
    (hx : σ.Exact master "headers") (ht : σ.handler.busConsumer.exchangeType = "headers")
    (d : BusDelivery) (m : Message) :
    ∃ done, d.dispatch serviceManager config σ.handler.busConsumer m = .ok done ∧
      ((d.submitted serviceManager config done.invoked).map HookRunnerArgs.hook).Perm
        ((σ.live.filter fun s => s.Asks master m).filterMap fun s =>
          hookOf serviceManager config (dump s) m.payload) := by
  set entries := σ.handler.busConsumer.subscriptions m.name with hentries
  have hperm : (entries.map Entry.content).Perm
      (σ.live.flatMap fun s => freshContent master s m.name) := by
    have hscratch := scratch_subscriptions master "headers" (fun s hs => ha.events_nodup hs) m.name
    exact hscratch ▸ hx m.name
  have hmatch : ∀ entry ∈ entries, matchMode entry.binding.arguments ≠ none := by
    intro entry hentry
    have hmem := hperm.mem_iff.mp (List.mem_map_of_mem hentry)
    obtain ⟨s, -, hs⟩ := List.mem_flatMap.mp hmem
    unfold freshContent at hs
    split_ifs at hs
    · have hbinding := congrArg Prod.snd (List.mem_singleton.mp hs)
      change entry.binding = _ at hbinding
      rw [hbinding, matchMode_eventBinding]
      exact Option.some_ne_none _
    · cases hs
  obtain ⟨done, hdone, hinvoked⟩ := dispatchLoop_invoked (fun _ => false)
    (d.call serviceManager config) m.payload m.headers entries hmatch 0
  refine ⟨done, ?_, ?_⟩
  · rw [BusDelivery.dispatch, Consumer.dispatch, ht]
    exact hdone
  · have hargs : ∀ invocation ∈ done.invoked, invocation.2 = .payload m.payload := by
      rw [dispatchLoop_calls _ _ _ _ _ _ hdone]
      intro invocation hin
      obtain ⟨entry, -, rfl⟩ := List.mem_map.mp hin
      rfl
    have hcontent : (entries.filter fun entry => Delivers entry.binding.arguments m.headers).map
        Entry.content =
          (entries.map Entry.content).filter fun c => Delivers c.2.arguments m.headers := by
      rw [List.filter_map]
      rfl
    have hhooks : ((done.invoked.map Prod.fst).filterMap fun entry =>
        hookOf serviceManager config entry.handler.subscription m.payload) =
          ((entries.map Entry.content).filter fun c => Delivers c.2.arguments m.headers).filterMap
            fun c => hookOf serviceManager config c.1 m.payload := by
      rw [hinvoked, ← hcontent, List.filterMap_map]
      rfl
    have hcollect := collect_freshContent master m σ.live fun subscription =>
      hookOf serviceManager config subscription m.payload
    rw [submitted_hooks d hargs, hhooks, ← hcollect]
    exact (hperm.filter _).filterMap _

end Exact

end WazoWebhookd

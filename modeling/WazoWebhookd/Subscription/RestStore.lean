import WazoWebhookd.Subscription.AcceptedBodies
import WazoWebhookd.Subscription.AllOrNothing
import WazoWebhookd.Subscription.TenantMoves

/-! What is true of every subscription that was stored through the endpoints. -/
namespace WazoWebhookd
open Failing SubscriptionService

/-- Keyword arguments whose values the schemas accept. -/
structure SchemaKwargs.Admitted (mallow : Mallow) (k : SchemaKwargs) : Prop where
  name_length : k.name.length ≤ 128
  service_length : k.service.length ≤ 128
  event_length : ∀ event ∈ k.events, event.length ≤ 128
  config : ∃ config : List (String × String), k.config = config.map (fun p => (p.1, some p.2)) ∧
    (config.map (·.1)).Nodup ∧ TakesBack mallow k.service config
  metadata_nodup : (k.metadata.map (·.1)).Nodup
  eventsUserUuid : ∀ uuid, k.eventsUserUuid = some uuid → UuidColumn uuid
  eventsWazoUuid : ∀ uuid, k.eventsWazoUuid = some uuid → UuidColumn uuid
  ownerUserUuid : ∀ uuid, k.ownerUserUuid = some uuid → UuidColumn uuid

/-- A subscription whose columns the schemas accept. -/
structure Subscription.Admitted (mallow : Mallow) (s : Subscription) : Prop where
  name_length : s.name.length ≤ 128
  service_length : s.service.length ≤ 128
  event_length : ∀ event ∈ s.events, event.length ≤ 128
  options : ∃ config : List (String × String),
    s.optionsRel = config.map (fun p => ⟨p.1, some p.2⟩) ∧
      (config.map (·.1)).Nodup ∧ TakesBack mallow s.service config
  metadata_nodup : (s.metadataRel.map (·.key)).Nodup
  eventsUserUuid : UuidColumn s.eventsUserUuid
  eventsWazoUuid : UuidColumn s.eventsWazoUuid
  ownerUserUuid : UuidColumn s.ownerUserUuid

theorem SchemaKwargs.Admitted.fromSchema {mallow : Mallow} {k : SchemaKwargs}
    (hk : k.Admitted mallow) {s : Subscription} (huser : UuidColumn s.eventsUserUuid)
    (hwazo : UuidColumn s.eventsWazoUuid) (howner : UuidColumn s.ownerUserUuid) :
    (s.clearRelations.fromSchema k).Admitted mallow := by
  have hcolumn : ∀ {column : Option (Option String)} {old : Option String}, UuidColumn old →
      (∀ uuid, column = some uuid → UuidColumn uuid) → UuidColumn (column.getD old) := by
    intro column old hold hnew
    cases column with
    | none => exact hold
    | some uuid => exact hnew uuid rfl
  obtain ⟨config, hconfig, hnodup, htakes⟩ := hk.config
  refine ⟨hk.name_length, hk.service_length, ?_, ⟨config, ?_, hnodup, htakes⟩, ?_,
    hcolumn huser hk.eventsUserUuid, hcolumn hwazo hk.eventsWazoUuid,
    hcolumn howner hk.ownerUserUuid⟩
  · rw [fromSchema_cleared_events]
    exact hk.event_length
  · simp [Subscription.fromSchema, Subscription.clearRelations, hconfig, Function.comp_def]
  · have hkeys : (s.clearRelations.fromSchema k).metadataRel.map (·.key) =
        k.metadata.map (·.1) := by
      simp [Subscription.fromSchema, Subscription.clearRelations, Function.comp_def]
    rw [hkeys]
    exact hk.metadata_nodup

section Load
variable {mallow : Mallow} {text : Json → Option String} {d : LoadedDict} {k : SchemaKwargs}

/-- The ownership columns of a dictionary. -/
def OwnershipColumns (d : LoadedDict) : Prop :=
  ∀ key ∈ nullDefaults, d.lookup key = none ∨
    ∃ uuid, d.lookup key = some (.ofNullable uuid) ∧ UuidColumn uuid

theorem exists_mapM_asNullable {column : Option Json} (h : column = none ∨
    ∃ uuid, column = some (.ofNullable uuid) ∧ UuidColumn uuid) :
    ∃ column' : Option (Option String), column.mapM Json.asNullable = some column' ∧
      ∀ uuid, column' = some uuid → UuidColumn uuid := by
  rcases h with rfl | ⟨uuid, rfl, huuid⟩
  · exact ⟨none, rfl, nofun⟩
  · refine ⟨some uuid, ?_, fun _ heq => Option.some.inj heq ▸ huuid⟩
    cases uuid <;> rfl

theorem admitted_of_ofDict (ht : ∀ s, text (.str s) = some s) {name service : String}
    {events : List String} {config : List (String × String)} {metadata : List (String × Json)}
    (hb : UserBody d name service events (config.map fun p => (p.1, .str p.2)) metadata)
    (ha : Accepted mallow name service events config metadata) (hc : OwnershipColumns d)
    (hk : SchemaKwargs.ofDict text d = some k) : k.Admitted mallow := by
  obtain ⟨eventsUser, heventsUser, hlengthUser⟩ :=
    exists_mapM_asNullable (hc "events_user_uuid" (by decide))
  obtain ⟨eventsWazo, heventsWazo, hlengthWazo⟩ :=
    exists_mapM_asNullable (hc "events_wazo_uuid" (by decide))
  obtain ⟨ownerUser, hownerUser, hlengthOwner⟩ :=
    exists_mapM_asNullable (hc "owner_user_uuid" (by decide))
  obtain ⟨tenant, htenant⟩ : ∃ tenant, (d.lookup "owner_tenant_uuid").mapM Json.asString =
      some tenant := ⟨_, ofDict_ownerTenant hk⟩
  have hofDict := hb.ofDict_eq text heventsWazo heventsUser hownerUser htenant
  obtain rfl := Option.some.inj (hofDict.symm.trans hk)
  refine ⟨ha.name_length, ha.service_length, ha.event_length, ⟨config, ?_, ha.config_nodup,
    ha.takesBack⟩, ?_, hlengthUser, hlengthWazo, hlengthOwner⟩
  · simp [ht]
  · simpa [Function.comp_def] using ha.metadata_nodup

end Load

/-- What the requests keep; the registry follows the database where no step fails. -/
structure RestInvariant (mallow : Mallow) (quiet : Prop) (w : World) : Prop where
  constraints : Constraints w.database
  admitted : ∀ s ∈ w.database, s.Admitted mallow
  registered : quiet → ∀ s ∈ w.database, (w.handler.subscriptionCallbacks s.uuid).isSome

section Calls
variable {mallow : Mallow} {quiet : Prop} {master : String} {fault : Option Fault} {w : World}

/-- A notification leaves the callbacks of the other subscriptions alone, and its own
subscription registered unless it deletes it. -/
theorem handle_registered {h h' : SubscriptionBusEventHandler} {n : Notification}
    (hh : h.handle master n = .ok h') {live : List Subscription}
    (hlive : ∀ s ∈ live, (h.subscriptionCallbacks s.uuid).isSome) :
    ∀ s ∈ liveAfter live n, (h'.subscriptionCallbacks s.uuid).isSome := by
  intro t ht
  cases n with
  | created s =>
    obtain rfl := Except.ok.inj hh
    rw [register_subscriptionCallbacks]
    split_ifs with huuid
    · rfl
    · refine hlive t ((List.mem_append.mp ht).resolve_right fun hmem => huuid ?_)
      rw [List.mem_singleton.mp hmem]
  | deleted s =>
    obtain rfl := Except.ok.inj hh
    obtain ⟨hmem, hne⟩ := mem_liveAfter_deleted.mp ht
    rw [unregister_subscriptionCallbacks, if_neg hne]
    exact hlive t hmem
  | updated s order =>
    cases hrow : h.subscriptionCallbacks s.uuid with
    | none =>
      rw [SubscriptionBusEventHandler.handle,
        SubscriptionBusEventHandler.update_of_none hrow] at hh
      cases hh
    | some prev =>
      rw [SubscriptionBusEventHandler.handle,
        SubscriptionBusEventHandler.update_of_some hrow] at hh
      obtain rfl := Except.ok.inj hh
      change (Function.update h.subscriptionCallbacks s.uuid _ t.uuid).isSome
      rw [Function.update_apply]
      split_ifs with huuid
      · rfl
      · rcases (mem_liveAfter_updated order).mp ht with ⟨rfl, -⟩ | ⟨hold, -⟩
        · exact absurd rfl huuid
        · exact hlive t hold

theorem RestInvariant.outcome (hw : RestInvariant mallow quiet w) (hq : quiet → fault = none)
    {n : Notification} (hc : Constraints (liveAfter w.database n))
    (hadmitted : ∀ s ∈ liveAfter w.database n, s.Admitted mallow) {α : Type} (a : α) :
    RestInvariant mallow quiet (outcome master fault w n a).2 := by
  unfold WazoWebhookd.outcome
  cases hh : w.handler.handle master n with
  | error e => exact ⟨hw.constraints, hw.admitted, hw.registered⟩
  | ok h =>
    dsimp only
    split_ifs with hn hcommit
    · exact ⟨hw.constraints, hw.admitted, fun hquiet => nomatch hn ▸ hq hquiet⟩
    · exact ⟨hw.constraints, hw.admitted, fun hquiet => nomatch hcommit ▸ hq hquiet⟩
    · exact ⟨hc, hadmitted, fun hquiet => handle_registered hh (hw.registered hquiet)⟩

theorem RestInvariant.create (hw : RestInvariant mallow quiet w) (hq : quiet → fault = none)
    (uuid : String) {k : SchemaKwargs} (hk : k.Admitted mallow) :
    RestInvariant mallow quiet (exec (create master fault uuid k) w).2 := by
  by_cases hearly : (ServiceCall.create uuid k).announced w.database = none ∨
      fault = some .flush
  · obtain ⟨e, he⟩ := exec_create_early master hearly
    rw [he]
    exact hw
  · obtain ⟨hnone, hf⟩ := not_or.mp hearly
    obtain ⟨n, ha⟩ := Option.ne_none_iff_exists'.mp hnone
    obtain ⟨s, rfl, hs⟩ := exec_create_announced master ha hf
    obtain ⟨tenantUuid, -, heq, -⟩ := ServiceCall.announced_create ha
    cases heq
    rw [hs]
    refine hw.outcome hq (ServiceCall.constraints_announced hw.constraints ha) ?_ _
    intro t ht
    rcases List.mem_append.mp ht with hold | hnew
    · exact hw.admitted t hold
    · rw [List.mem_singleton.mp hnew]
      exact hk.fromSchema (s := Subscription.blank uuid tenantUuid) nofun nofun nofun

theorem RestInvariant.update (hw : RestInvariant mallow quiet w) (hq : quiet → fault = none)
    (uuid : String) {k : SchemaKwargs} (hk : k.Admitted mallow) (order tenants : List String)
    (user : Option String) :
    RestInvariant mallow quiet (exec (update master fault uuid k order tenants user) w).2 := by
  by_cases hearly : (ServiceCall.update uuid k order tenants user).announced w.database = none ∨
      (ServiceCall.update uuid k order tenants user).EarlyFault fault
  · obtain ⟨e, he⟩ := exec_update_early master hearly
    rw [he]
    exact hw
  · obtain ⟨hnone, hf⟩ := not_or.mp hearly
    obtain ⟨n, ha⟩ := Option.ne_none_iff_exists'.mp hnone
    obtain ⟨s', rfl, hs'⟩ := exec_update_announced master hw.constraints ha hf
    obtain ⟨s, hs, heq, -⟩ := ServiceCall.announced_update ha
    cases heq
    rw [hs']
    refine hw.outcome hq (ServiceCall.constraints_announced hw.constraints ha) ?_ _
    intro t ht
    rcases (mem_liveAfter_updated order).mp ht with ⟨rfl, -⟩ | ⟨hold, -⟩
    · have hadmitted := hw.admitted s (mem_of_find hs).1
      exact hk.fromSchema hadmitted.eventsUserUuid hadmitted.eventsWazoUuid hadmitted.ownerUserUuid
    · exact hw.admitted t hold

theorem RestInvariant.delete (hw : RestInvariant mallow quiet w) (hq : quiet → fault = none)
    (uuid : String) (tenants : List String) (user : Option String) :
    RestInvariant mallow quiet (exec (delete master fault uuid tenants user) w).2 := by
  by_cases hearly : find w.database uuid tenants user = none ∨ fault = some .lookup
  · rw [exec_delete_not_found master hearly]
    exact hw
  · obtain ⟨hnone, hf⟩ := not_or.mp hearly
    obtain ⟨s, hs⟩ := Option.ne_none_iff_exists'.mp hnone
    rw [exec_delete_announced hs hf]
    have ha : (ServiceCall.delete uuid tenants user).announced w.database = some (.deleted s) := by
      rw [ServiceCall.announced, hs]
      rfl
    refine hw.outcome hq (ServiceCall.constraints_announced hw.constraints ha) ?_ _
    exact fun t ht => hw.admitted t (mem_liveAfter_deleted.mp ht).1

end Calls

def UserRequest.json? : UserRequest → Option Json
  | .post _ json | .put _ json _ => some json
  | _ => none

def RestAction.fault : RestAction → Option Fault
  | .me _ fault _ | .admin _ fault _ => fault

/-- The body was read as JSON, and the uuids of the token have the length of a uuid. -/
def RestAction.Proper : RestAction → Prop
  | .me token _ request => UuidColumn token.userUuid ∧ token.xivoUuid.length = 36 ∧
      ∀ json, request.json? = some json → json.Distinct
  | .admin _ _ request => ∀ json, request.json? = some json → json.Distinct

section Requests
variable {mallow : AdminMallow} {text : Json → Option String} {quiet : Prop} {fault : Option Fault}
  {d : LoadedDict} {k : SchemaKwargs} {json : Json}

theorem UserBody.owned {name service : String} {events : List String}
    {config metadata : List (String × Json)} (hb : UserBody d name service events config metadata)
    (token : AnyToken) : UserBody (token.owned d) name service events config metadata := by
  have htenant := hb.insert (by decide : "owner_tenant_uuid" ∉ _) (.str token.tenantUuid)
  have huser := htenant.insert (by decide : "events_user_uuid" ∉ _) (.ofNullable token.userUuid)
  have howner := huser.insert (by decide : "owner_user_uuid" ∉ _) (.ofNullable token.userUuid)
  exact howner.insert (by decide : "events_wazo_uuid" ∉ _) (.str token.xivoUuid)

theorem ownershipColumns_owned {token : AnyToken} (huser : UuidColumn token.userUuid)
    (hxivo : token.xivoUuid.length = 36) (d : LoadedDict) : OwnershipColumns (token.owned d) := by
  have hwazo : UuidColumn (some token.xivoUuid) := fun _ h => Option.some.inj h ▸ hxivo
  intro key hkey
  right
  simp only [nullDefaults, List.mem_cons, List.not_mem_nil, or_false] at hkey
  unfold AnyToken.owned
  rcases hkey with rfl | rfl | rfl
  · refine ⟨token.userUuid, ?_, huser⟩
    rw [Finmap.lookup_insert_of_ne _ (by decide), Finmap.lookup_insert_of_ne _ (by decide),
      Finmap.lookup_insert]
  · exact ⟨_, Finmap.lookup_insert .., hwazo⟩
  · refine ⟨token.userUuid, ?_, huser⟩
    rw [Finmap.lookup_insert_of_ne _ (by decide), Finmap.lookup_insert]

theorem admitted_of_userLoad (hm : mallow.Specified) (ht : ∀ s, text (.str s) = some s)
    (hjson : json.Distinct)
    (hload : mallow.load (userSubscriptionSchema mallow.toMallow) json = .ok d)
    (hk : SchemaKwargs.ofDict text d = some k) : k.Admitted mallow.toMallow := by
  obtain ⟨name, service, events, config, metadata, hb, ha⟩ :=
    accepted_of_load hm.toSpecified hjson (fun _ hf => hf) hload
  refine admitted_of_ofDict ht hb ha (fun key hkey => .inl ?_) hk
  refine hm.toSpecified.lookup_of_notMem hload (notMem_names ?_)
  simp only [nullDefaults, List.mem_cons, List.not_mem_nil, or_false] at hkey
  rcases hkey with rfl | rfl | rfl <;> decide

theorem admitted_of_owned (hm : mallow.Specified) (ht : ∀ s, text (.str s) = some s)
    (hjson : json.Distinct) {token : AnyToken} (huser : UuidColumn token.userUuid)
    (hxivo : token.xivoUuid.length = 36)
    (hload : mallow.load (userSubscriptionSchema mallow.toMallow) json = .ok d)
    (hk : SchemaKwargs.ofDict text (token.owned d) = some k) : k.Admitted mallow.toMallow := by
  obtain ⟨name, service, events, config, metadata, hb, ha⟩ :=
    accepted_of_load hm.toSpecified hjson (fun _ hf => hf) hload
  exact admitted_of_ofDict ht (hb.owned token) ha (ownershipColumns_owned huser hxivo d) hk

theorem admitted_of_adminLoad (hm : mallow.Specified) (ht : ∀ s, text (.str s) = some s)
    (hjson : json.Distinct) (hload : loadSubscription mallow json = .ok d) {tenantUuid : String}
    (hk : SchemaKwargs.ofDict text (d.insert "owner_tenant_uuid" (.str tenantUuid)) = some k) :
    k.Admitted mallow.toMallow := by
  obtain ⟨⟨name, service, events, config, metadata, hb, ha⟩, huuids⟩ :=
    accepted_of_loadSubscription hm hjson hload
  refine admitted_of_ofDict ht (hb.insert (by decide : "owner_tenant_uuid" ∉ _) _) ha ?_ hk
  intro key hkey
  have hne : key ≠ "owner_tenant_uuid" := by
    rintro rfl
    exact absurd hkey (by decide)
  rw [Finmap.lookup_insert_of_ne _ hne]
  exact .inr (huuids key hkey)

variable (master : String)

theorem preserves_serveMe (hm : mallow.Specified) (ht : ∀ s, text (.str s) = some s)
    (hq : quiet → fault = none) {token : AnyToken} (huser : UuidColumn token.userUuid)
    (hxivo : token.xivoUuid.length = 36) {request : UserRequest}
    (hjson : ∀ json, request.json? = some json → json.Distinct) :
    Preserves (RestInvariant mallow.toMallow quiet)
      (request.serveMe mallow.toMallow text master fault token) := by
  cases request with
  | list args =>
    exact Reads.preserves ((reads_raising _ (reads_ofExcept _)).bind fun _ =>
      (reads_raising _ (reads_list _ _ _ _ _)).bind fun _ => reads_pure _)
  | get uuid =>
    exact Reads.preserves ((reads_raising _ (reads_get _ _ _ _)).bind fun _ => reads_pure _)
  | delete uuid =>
    have hdelete : Preserves (RestInvariant mallow.toMallow quiet)
        (SubscriptionService.delete master fault uuid [token.tenantUuid] token.userUuid) :=
      fun w hw => hw.delete hq uuid _ _
    exact (hdelete.raising _).bind fun _ => (reads_pure _).preserves
  | post uuid json =>
    refine (reads_raising _ (reads_ofExcept _)).preserves_bind fun w d hd hw => ?_
    refine (reads_keywords _ _).preserves_bind (fun w k hk hw => ?_) w hw
    have hadmitted := admitted_of_owned hm ht (hjson json rfl) huser hxivo
      (eq_ok_of_exec_raising hd) (ofDict_of_exec_keywords hk)
    change RestInvariant _ _ (exec (raising _ _ >>= fun s => pure (Response.item (dump s))) w).2
    rw [exec_raising_bind_pure]
    exact hw.create hq uuid hadmitted
  | put uuid json order =>
    refine (reads_raising _ (reads_ofExcept _)).preserves_bind fun w d hd hw => ?_
    refine (reads_keywords _ _).preserves_bind (fun w k hk hw => ?_) w hw
    have hadmitted := admitted_of_userLoad hm ht (hjson json rfl) (eq_ok_of_exec_raising hd)
      (ofDict_of_exec_keywords hk)
    change RestInvariant _ _ (exec (raising _ _ >>= fun s => pure (Response.item (dump s))) w).2
    rw [exec_raising_bind_pure]
    exact hw.update hq uuid hadmitted order _ _

theorem preserves_serveAdmin (hm : mallow.Specified) (ht : ∀ s, text (.str s) = some s)
    (hq : quiet → fault = none) (access : Access) {request : UserRequest}
    (hjson : ∀ json, request.json? = some json → json.Distinct) :
    Preserves (RestInvariant mallow.toMallow quiet)
      (request.serveAdmin mallow text master fault access) := by
  cases request with
  | list args =>
    exact Reads.preserves ((reads_raising _ (reads_ofExcept _)).bind fun _ =>
      (reads_raising _ (reads_ofExcept _)).bind fun _ =>
        (reads_raising _ (reads_list _ _ _ _ _)).bind fun _ => reads_pure _)
  | get uuid =>
    exact Reads.preserves ((reads_raising _ (reads_ofExcept _)).bind fun _ =>
      (reads_raising _ (reads_get _ _ _ _)).bind fun _ => reads_pure _)
  | delete uuid =>
    refine (reads_raising _ (reads_ofExcept _)).preserves.bind fun tenantUuids => ?_
    have hdelete : Preserves (RestInvariant mallow.toMallow quiet)
        (SubscriptionService.delete master fault uuid tenantUuids none) :=
      fun w hw => hw.delete hq uuid _ _
    exact (hdelete.raising _).bind fun _ => (reads_pure _).preserves
  | post uuid json =>
    refine (reads_adminBody _ _).preserves_bind fun w d hd hw => ?_
    obtain ⟨loaded, tenantUuid, hload, -, rfl⟩ := adminBody_of_exec hd
    refine (reads_raising _ (reads_keywords _ _)).preserves_bind (fun w k hk hw => ?_) w hw
    have hadmitted := admitted_of_adminLoad hm ht (hjson json rfl) hload
      (ofDict_of_exec_keywords (exec_of_exec_raising hk))
    change RestInvariant _ _ (exec (raising _ _ >>= fun s => pure (Response.item (dump s))) w).2
    rw [exec_raising_bind_pure]
    exact hw.create hq uuid hadmitted
  | put uuid json order =>
    refine (reads_adminBody _ _).preserves_bind fun w d hd hw => ?_
    obtain ⟨loaded, tenantUuid, hload, -, rfl⟩ := adminBody_of_exec hd
    refine (reads_raising _ (reads_ofExcept _)).preserves_bind (fun w tenants _ hw => ?_) w hw
    refine (reads_raising _ (reads_keywords _ _)).preserves_bind (fun w k hk hw => ?_) w hw
    have hadmitted := admitted_of_adminLoad hm ht (hjson json rfl) hload
      (ofDict_of_exec_keywords (exec_of_exec_raising hk))
    change RestInvariant _ _ (exec (raising _ _ >>= fun s => pure (Response.item (dump s))) w).2
    rw [exec_raising_bind_pure]
    exact hw.update hq uuid hadmitted order _ _

theorem restInvariant_step (hm : mallow.Specified) (ht : ∀ s, text (.str s) = some s)
    {σ : RestApi} (hσ : RestInvariant mallow.toMallow quiet σ.world) {action : RestAction}
    (haction : action.Proper) (hq : quiet → action.fault = none) :
    RestInvariant mallow.toMallow quiet (σ.step mallow text master action).world := by
  cases action with
  | me token fault request =>
    obtain ⟨huser, hxivo, hjson⟩ := haction
    exact preserves_serveMe master hm ht hq huser hxivo hjson σ.world hσ
  | admin access fault request => exact preserves_serveAdmin master hm ht hq access haction _ hσ

def RestApi.after (mallow : AdminMallow) (text : Json → Option String)
    (master exchangeType : String) (actions : List RestAction) : RestApi :=
  actions.foldl (RestApi.step mallow text master) ⟨⟨[], .init exchangeType, [], []⟩, fun _ => none⟩

theorem restInvariant_after (hm : mallow.Specified) (ht : ∀ s, text (.str s) = some s)
    (exchangeType : String) {actions : List RestAction} (hactions : ∀ a ∈ actions, a.Proper) :
    RestInvariant mallow.toMallow (∀ a ∈ actions, a.fault = none)
      (RestApi.after mallow text master exchangeType actions).world := by
  set quiet : Prop := ∀ a ∈ actions, a.fault = none
  have hmem : Run.Along (RestApi.step mallow text master) (fun _ a => a ∈ actions)
      ⟨⟨[], .init exchangeType, [], []⟩, fun _ => none⟩ actions := Run.along_label.mpr fun _ h => h
  have hrun : Run.Always (RestApi.step mallow text master)
      (fun σ => RestInvariant mallow.toMallow quiet σ.world)
      ⟨⟨[], .init exchangeType, [], []⟩, fun _ => none⟩ actions := by
    refine Run.always_of_along (fun σ a hσ ha => ?_) (fun _ hσ => hσ) ?_ hmem
    · exact restInvariant_step master hm ht hσ (hactions a ha) fun h => h a ha
    · exact ⟨⟨List.nodup_nil, nofun⟩, nofun, fun _ => nofun⟩
  exact hrun actions List.prefix_rfl

end Requests

end WazoWebhookd

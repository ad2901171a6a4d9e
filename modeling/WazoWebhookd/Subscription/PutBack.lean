import WazoWebhookd.Subscription.RestStore
import WazoWebhookd.Subscription.StoredBodies

/-! A put of what a get returned. -/
namespace WazoWebhookd
open Failing SubscriptionService

/-- An order of the items of a dictionary. -/
structure StringDict.Listed (d : StringDict) (items : List (String × Option String)) : Prop where
  nodup : (items.map (·.1)).Nodup
  dict : dictOf items = d

def nullableObject (items : List (String × Option String)) : Json :=
  .obj (items.map fun p => (p.1, .ofNullable p.2))

/-- The JSON of a response, with the items of its two dictionaries in some order. -/
def subscriptionFields (dict : SubscriptionDict) (config metadata : List (String × Option String)) :
    List (String × Json) :=
  [("uuid", .str dict.uuid), ("name", .str dict.name), ("service", .str dict.service),
    ("events", .arr (dict.events.map .str)), ("events_user_uuid", .ofNullable dict.eventsUserUuid),
    ("events_wazo_uuid", .ofNullable dict.eventsWazoUuid), ("config", nullableObject config),
    ("owner_user_uuid", .ofNullable dict.ownerUserUuid),
    ("owner_tenant_uuid", .str dict.ownerTenantUuid), ("metadata", nullableObject metadata)]

def subscriptionJson (dict : SubscriptionDict) (config metadata : List (String × Option String)) :
    Json := .obj (subscriptionFields dict config metadata)

/-- The get shows the subscription, and the put of what it shows, in whatever order and with
whatever iteration over the events, succeeds and leaves all that is shown as it was. -/
def PutsBack {ε : Type} (w : World) (s : Subscription) (get : Failing World ε Response)
    (put : Json → List String → Failing World ε Response) : Prop :=
  exec get w = (.ok (.item (dump s)), w) ∧
    ∀ config metadata, StringDict.Listed (dump s).config config →
      StringDict.Listed (dump s).metadata metadata → ∀ order,
        ∃ w', exec (put (subscriptionJson (dump s) config metadata) order) w =
            (.ok (.item (dump s)), w') ∧
          w'.database.map dump = w.database.map dump

section Values
variable {mallow : Mallow} {s : Subscription} {config metadata : List (String × Option String)}

theorem exists_stored_config (hs : s.Admitted mallow)
    (hconfig : StringDict.Listed (dump s).config config) :
    ∃ fields : List (String × String), nullableObject config = stringObject fields ∧
      ∀ data : List (String × Json), data.lookup "service" = some (.str s.service) →
        ∃ stored, configField mallow data (nullableObject config) = .ok (stringObject stored) ∧
          (stored.map (·.1)).Nodup ∧ dictOf (stored.map fun p => (p.1, some p.2)) = s.config := by
  obtain ⟨options, hoptions, hnodup, htakes⟩ := hs.options
  have hnodup' : ((options.map fun p => (p.1, some p.2)).map (·.1)).Nodup := by
    simpa [Function.comp_def] using hnodup
  have hstored : s.config = dictOf (options.map fun p => (p.1, some p.2)) := by
    simp [Subscription.config, hoptions, Function.comp_def]
  have hperm : config.Perm (options.map fun p => (p.1, some p.2)) :=
    perm_of_dictOf hconfig.nodup hnodup' (hconfig.dict.trans hstored)
  obtain ⟨fields, rfl⟩ : ∃ fields : List (String × String),
      config = fields.map fun p => (p.1, some p.2) := by
    refine ⟨config.map fun p => (p.1, p.2.getD ""), ?_⟩
    rw [List.map_map]
    refine (List.map_id config).symm.trans (List.map_congr_left fun p hp => ?_)
    obtain ⟨q, -, rfl⟩ := List.mem_map.mp (hperm.mem_iff.mp hp)
    rfl
  have hfields : nullableObject (fields.map fun p => (p.1, some p.2)) = stringObject fields := by
    simp only [nullableObject, stringObject, List.map_map]
    rfl
  refine ⟨fields, hfields, fun data hservice => ?_⟩
  have hinjective : Function.Injective fun p : String × String => (p.1, some p.2) := by
    rintro ⟨a, b⟩ ⟨a', b'⟩ h
    simpa using h
  have hpermFields : fields.Perm options := (List.map_perm_map_iff hinjective).mp hperm
  obtain ⟨stored, hok, hpermStored⟩ := htakes data hservice fields hpermFields
  refine ⟨stored, hfields ▸ hok, (hpermStored.map _).nodup_iff.mpr hnodup, ?_⟩
  rw [hstored]
  refine dictOf_perm ?_ (hpermStored.map _)
  have hkeys := (hpermStored.map (·.1)).nodup_iff.mpr hnodup
  simpa [Function.comp_def] using hkeys

variable (metadata) in
theorem exists_values_of_shown (hm : mallow.Specified) (hs : s.Admitted mallow)
    (hconfig : StringDict.Listed (dump s).config config) :
    let data := subscriptionFields (dump s) config metadata
    ∃ stored : List (String × String), (stored.map (·.1)).Nodup ∧
      dictOf (stored.map fun p => (p.1, some p.2)) = s.config ∧
      (∀ f ∈ (userSubscriptionSchema mallow).loadFields, ∃ v, f.value data = some v) ∧
      ∀ d : LoadedDict, (∀ f ∈ (userSubscriptionSchema mallow).loadFields,
          d.lookup f.name = f.value data) →
        UserBody d s.name s.service s.events (stored.map fun p => (p.1, .str p.2))
          (metadata.map fun p => (p.1, .ofNullable p.2)) := by
  intro data
  obtain ⟨fields, -, hfields⟩ := exists_stored_config hs hconfig
  obtain ⟨stored, hstored, hnodup, hdict⟩ := hfields data rfl
  have hmem : ∀ i : Fin 5, (userSubscriptionSchema mallow).loadFields.get i ∈
      (userSubscriptionSchema mallow).loadFields :=
    List.get_mem (userSubscriptionSchema mallow).loadFields
  have hevents : List.Forall₂ (fun item value => mallow.string 128 item = .ok value)
      (s.events.map .str) (s.events.map .str) := by
    refine List.forall₂_same.mpr fun item hitem => ?_
    obtain ⟨event, hevent, rfl⟩ := List.mem_map.mp hitem
    exact hm.string.mpr ⟨event, hs.event_length event hevent, rfl, rfl⟩
  have h0 : ((userSubscriptionSchema mallow).loadFields.get (0 : Fin 5)).value data =
      some (.str s.name) :=
    Field.value_eq_some.mpr ⟨_, rfl, hm.string.mpr ⟨_, hs.name_length, rfl, rfl⟩⟩
  have h1 : ((userSubscriptionSchema mallow).loadFields.get (1 : Fin 5)).value data =
      some (.str s.service) :=
    Field.value_eq_some.mpr ⟨_, rfl, hm.string.mpr ⟨_, hs.service_length, rfl, rfl⟩⟩
  have h2 : ((userSubscriptionSchema mallow).loadFields.get (2 : Fin 5)).value data =
      some (.arr (s.events.map .str)) :=
    Field.value_eq_some.mpr ⟨_, rfl, hm.list.mpr ⟨_, _, hevents, rfl, rfl⟩⟩
  have h3 : ((userSubscriptionSchema mallow).loadFields.get (3 : Fin 5)).value data =
      some (stringObject stored) := Field.value_eq_some.mpr ⟨_, rfl, hstored⟩
  have h4 : ((userSubscriptionSchema mallow).loadFields.get (4 : Fin 5)).value data =
      some (nullableObject metadata) :=
    Field.value_eq_some.mpr ⟨_, rfl, hm.dict.mpr ⟨_, rfl, rfl⟩⟩
  refine ⟨stored, hnodup, hdict, fun f hf => ?_, fun d hd => ?_⟩
  · change f ∈ [_, _, _, _, _] at hf
    simp only [List.mem_cons, List.not_mem_nil, or_false] at hf
    rcases hf with rfl | rfl | rfl | rfl | rfl
    · exact ⟨_, h0⟩
    · exact ⟨_, h1⟩
    · exact ⟨_, h2⟩
    · exact ⟨_, h3⟩
    · exact ⟨_, h4⟩
  · have hmetadata : d.lookup "metadata_" = some (nullableObject metadata) :=
      (hd _ (hmem 4)).trans h4
    refine ⟨(hd _ (hmem 0)).trans h0, (hd _ (hmem 1)).trans h1, (hd _ (hmem 2)).trans h2,
      (hd _ (hmem 3)).trans h3, ?_⟩
    rw [hmetadata]
    rfl

/-- Keyword arguments that say again what the subscription is. -/
structure SchemaKwargs.Repeats (k : SchemaKwargs) (s : Subscription) : Prop where
  name : k.name = s.name
  service : k.service = s.service
  config : dictOf k.config = s.config
  config_nodup : (k.config.map (·.1)).Nodup
  events : k.events = s.events
  metadata : dictOf k.metadata = s.metadata
  eventsWazoUuid : k.eventsWazoUuid.getD s.eventsWazoUuid = s.eventsWazoUuid
  eventsUserUuid : k.eventsUserUuid.getD s.eventsUserUuid = s.eventsUserUuid
  ownerUserUuid : k.ownerUserUuid.getD s.ownerUserUuid = s.ownerUserUuid
  ownerTenantUuid : k.ownerTenantUuid.getD s.ownerTenantUuid = s.ownerTenantUuid

theorem dump_fromSchema_of_repeats {k : SchemaKwargs} (hk : k.Repeats s) :
    dump (s.clearRelations.fromSchema k) = dump s := by
  have hevents := (fromSchema_cleared_events s k).trans hk.events
  have hconfig := (fromSchema_cleared_config s k).trans hk.config
  have hmetadata := (fromSchema_cleared_metadata s k).trans hk.metadata
  unfold dump
  rw [hevents, hconfig, hmetadata]
  simp only [Subscription.fromSchema, Subscription.clearRelations, hk.name, hk.service,
    hk.eventsWazoUuid, hk.eventsUserUuid, hk.ownerUserUuid, hk.ownerTenantUuid]

theorem exec_update_repeats (master : String) {w : World} (hw : Constraints w.database)
    (hs : s ∈ w.database) {tenants : List String} {user : Option String}
    (hv : Visible tenants user s) (hregistered : (w.handler.subscriptionCallbacks s.uuid).isSome)
    {k : SchemaKwargs} (hk : k.Repeats s) (order : List String) :
    ∃ s' w', exec (update master none s.uuid k order tenants user) w = (.ok s', w') ∧
      dump s' = dump s ∧ w'.database.map dump = w.database.map dump := by
  have hdump := dump_fromSchema_of_repeats hk
  have hc := (constraints_updated_iff hw hk.config_nodup hs order).mpr
    (hk.events ▸ (hw.2 s hs).1)
  have hhandled := handle_updated_isOk master (s.clearRelations.fromSchema k) order hregistered
  obtain ⟨w', hok, hd⟩ := exec_update_succeeds hw
    (⟨rfl, find_self hw hs hv, hc, hhandled⟩ : UpdateSucceeds master none w s.uuid k order tenants
      user s)
  refine ⟨_, w', hok, hdump, ?_⟩
  rw [hd, liveAfter, List.map_map]
  refine List.map_congr_left fun t ht => ?_
  change dump (if t.uuid = (s.clearRelations.fromSchema k).uuid then _ else t) = dump t
  split_ifs with huuid
  · obtain rfl := hw.uuid_inj ht hs huuid
    exact hdump
  · rfl

end Values

section Endpoints
variable {mallow : AdminMallow} {text : Json → Option String} {s : Subscription} {w : World}
  {config metadata : List (String × Option String)}

theorem repeats_of_ofDict (ht : ∀ v, text (.ofNullable v) = v)
    {stored : List (String × String)} (hnodup : (stored.map (·.1)).Nodup)
    (hdict : dictOf (stored.map fun p => (p.1, some p.2)) = s.config)
    (hmetadata : StringDict.Listed (dump s).metadata metadata)
    {eventsWazo eventsUser ownerUser : Option (Option String)} {tenant : Option String}
    (heventsWazo : eventsWazo.getD s.eventsWazoUuid = s.eventsWazoUuid)
    (heventsUser : eventsUser.getD s.eventsUserUuid = s.eventsUserUuid)
    (hownerUser : ownerUser.getD s.ownerUserUuid = s.ownerUserUuid)
    (htenant : tenant.getD s.ownerTenantUuid = s.ownerTenantUuid) :
    SchemaKwargs.Repeats ⟨s.name, s.service,
      (stored.map fun p => (p.1, Json.str p.2)).map fun p => (p.1, text p.2), s.events,
      (metadata.map fun p => (p.1, Json.ofNullable p.2)).map fun p => (p.1, text p.2), eventsWazo,
      eventsUser, ownerUser, tenant⟩ s := by
  have hstr : ∀ v, text (.str v) = some v := fun v => ht (some v)
  have hitems : ((metadata.map fun p => (p.1, Json.ofNullable p.2)).map fun p =>
      (p.1, text p.2)) = metadata := by
    rw [List.map_map]
    refine (List.map_congr_left fun p _ => ?_).trans (List.map_id metadata)
    exact congrArg (p.1, ·) (ht p.2)
  refine ⟨rfl, rfl, ?_, ?_, rfl, ?_, heventsWazo, heventsUser, hownerUser, htenant⟩
  · simpa [hstr, Function.comp_def] using hdict
  · simpa [Function.comp_def] using hnodup
  · rw [hitems]
    exact hmetadata.dict

variable (master : String)

theorem putsBack_me (hm : mallow.Specified) (ht : ∀ v, text (.ofNullable v) = v)
    (hw : Constraints w.database) (hs : s ∈ w.database) (ha : s.Admitted mallow.toMallow)
    (hregistered : (w.handler.subscriptionCallbacks s.uuid).isSome) {token : AnyToken}
    (htenant : token.tenantUuid = s.ownerTenantUuid) (huser : token.userUuid = s.ownerUserUuid) :
    PutsBack w s (UserRequest.serveMe mallow.toMallow text master none token (.get s.uuid))
      fun json order =>
        UserRequest.serveMe mallow.toMallow text master none token (.put s.uuid json order) := by
  have hv : Visible [token.tenantUuid] token.userUuid s := by
    refine ⟨fun _ => List.mem_singleton.mpr htenant.symm, fun hsome => ?_⟩
    rw [truthy_of_ne (truthy_isSome_iff.mp hsome).2, huser]
  constructor
  · have hget : exec (SubscriptionService.get none s.uuid [token.tenantUuid] token.userUuid) w =
        (.ok s, w) := by
      unfold SubscriptionService.get
      rw [exec_get_, if_neg nofun, find_self hw hs hv]
    exact exec_bind_of_ok (exec_raising_of_ok _ hget) _
  · intro config metadata hconfig hmetadata order
    set data := subscriptionFields (dump s) config metadata with hdata
    obtain ⟨stored, hnodup, hdict, hvalues, hbody⟩ :=
      exists_values_of_shown metadata hm.toSpecified ha hconfig
    set schema := userSubscriptionSchema mallow.toMallow
    have haccepts : schema.accepts data :=
      Schema.accepts_iff.mpr ⟨fun f hf => .inl (hvalues f hf), .inl rfl⟩
    have hload : mallow.load schema (.obj data) = .ok (schema.entries data).toFinmap :=
      hm.load.mpr ⟨data, rfl, haccepts, rfl⟩
    have hb := hbody _ fun f hf => Schema.lookup_entries hf
    have hother : ∀ key ∉ ["name", "service", "events", "config", "metadata_"],
        (schema.entries data).toFinmap.lookup key = none := fun key hkey =>
      hm.toSpecified.lookup_of_notMem hload (notMem_names hkey)
    have hk := hb.ofDict_eq text
      (by rw [hother "events_wazo_uuid" (by decide)]; rfl)
      (by rw [hother "events_user_uuid" (by decide)]; rfl)
      (by rw [hother "owner_user_uuid" (by decide)]; rfl)
      (by rw [hother "owner_tenant_uuid" (by decide)]; rfl)
    have hkept : ∀ column : Option String, (none : Option (Option String)).getD column = column :=
      fun _ => rfl
    have hrepeats := repeats_of_ofDict ht hnodup hdict hmetadata (hkept s.eventsWazoUuid)
      (hkept s.eventsUserUuid) (hkept s.ownerUserUuid) (Option.getD_none : none.getD _ = _)
    obtain ⟨s', w', hok, hdump, hd⟩ :=
      exec_update_repeats master hw hs hv hregistered hrepeats order
    refine ⟨w', ?_, hd⟩
    change exec (raising RestError.load (ofExcept (mallow.load schema (.obj data))) >>= _) w = _
    rw [hload, exec_bind_of_ok (exec_raising_of_ok _ (exec_ofExcept _ w)),
      exec_bind_of_ok (exec_keywords hk), exec_bind_of_ok (exec_raising_of_ok _ hok), hdump]
    rfl

theorem orNull_ofNullable (hm : mallow.Specified) {uuid : Option String} (h : UuidColumn uuid) :
    orNull (mallow.stringOf 36) (.ofNullable uuid) = .ok (.ofNullable uuid) := by
  cases uuid with
  | none => rfl
  | some u => exact hm.stringOf.mpr ⟨u, h u rfl, rfl, rfl⟩

theorem value_uuidField (hm : mallow.Specified) {data : List (String × Json)} {name : String}
    {uuid : Option String} (hlookup : data.lookup name = some (.ofNullable uuid))
    (h : UuidColumn uuid) :
    (⟨name, name, fun _ => orNull (mallow.stringOf 36), false, false⟩ : Field).value data =
      some (.ofNullable uuid) :=
  Field.value_eq_some.mpr ⟨_, hlookup, orNull_ofNullable hm h⟩

theorem exists_kwargs_of_shown (hm : mallow.Specified) (ht : ∀ v, text (.ofNullable v) = v)
    (ha : s.Admitted mallow.toMallow) (hconfig : StringDict.Listed (dump s).config config)
    (hmetadata : StringDict.Listed (dump s).metadata metadata) :
    ∃ d k, loadSubscription mallow (subscriptionJson (dump s) config metadata) = .ok d ∧
      SchemaKwargs.ofDict text (d.insert "owner_tenant_uuid" (.str s.ownerTenantUuid)) = some k ∧
      k.Repeats s := by
  set data := subscriptionFields (dump s) config metadata with hdata
  obtain ⟨stored, hnodup, hdict, hvalues, hbody⟩ :=
    exists_values_of_shown metadata hm.toSpecified ha hconfig
  have huser := value_uuidField hm (show data.lookup "events_user_uuid" = _ from rfl)
    ha.eventsUserUuid
  have hwazo := value_uuidField hm (show data.lookup "events_wazo_uuid" = _ from rfl)
    ha.eventsWazoUuid
  have howner := value_uuidField hm (show data.lookup "owner_user_uuid" = _ from rfl)
    ha.ownerUserUuid
  set schema := subscriptionSchema mallow
  have hfield : ∀ i : Fin 8, schema.loadFields.get i ∈ schema.loadFields :=
    List.get_mem schema.loadFields
  have haccepts : schema.accepts data := by
    refine Schema.accepts_iff.mpr ⟨fun f hf => .inl ?_, .inl rfl⟩
    have hshared : f ∈ (userSubscriptionSchema mallow.toMallow).loadFields →
        ∃ v, f.value data = some v := hvalues f
    change f ∈ [_, _, _, _, _] → _ at hshared
    change f ∈ [_, _, _, _, _, _, _, _] at hf
    simp only [List.mem_cons, List.not_mem_nil, or_false] at hf hshared
    rcases hf with rfl | rfl | rfl | rfl | rfl | rfl | rfl | rfl
    · exact hshared (by simp)
    · exact hshared (by simp)
    · exact hshared (by simp)
    · exact ⟨_, huser⟩
    · exact ⟨_, hwazo⟩
    · exact hshared (by simp)
    · exact ⟨_, howner⟩
    · exact hshared (by simp)
  have hload : mallow.load schema (.obj data) = .ok (schema.entries data).toFinmap :=
    hm.load.mpr ⟨data, rfl, haccepts, rfl⟩
  have hb := hbody (schema.entries data).toFinmap fun f hf =>
    Schema.lookup_entries (userFields_subset mallow f hf)
  have hb' := hb.fillDefaults.insert (by decide : "owner_tenant_uuid" ∉ _)
    (.str s.ownerTenantUuid)
  set d := fillDefaults (schema.entries data).toFinmap with hd
  -- The ownership columns, which are shown and therefore loaded.
  have hcolumn : ∀ {f : Field} {uuid : Option String}, f ∈ schema.loadFields →
      f.name ∈ nullDefaults → f.value data = some (.ofNullable uuid) →
        ((d.insert "owner_tenant_uuid" (.str s.ownerTenantUuid)).lookup f.name).mapM
          Json.asNullable = some (some uuid) := by
    intro f uuid hf hname hvalue
    have hne : f.name ≠ "owner_tenant_uuid" := by
      intro heq
      rw [heq] at hname
      exact absurd hname (by decide)
    rw [Finmap.lookup_insert_of_ne _ hne, hd, lookup_fillDefaults, if_pos hname,
      Schema.lookup_entries hf, hvalue]
    exact mapM_asNullable uuid
  have hdefault : ∀ i : Fin 3, nullDefaults.get i ∈ nullDefaults := List.get_mem nullDefaults
  have hwazoColumn := hcolumn (hfield 4) (hdefault 1) hwazo
  have huserColumn := hcolumn (hfield 3) (hdefault 0) huser
  have hownerColumn := hcolumn (hfield 6) (hdefault 2) howner
  refine ⟨d, _, ?_, hb'.ofDict_eq text hwazoColumn huserColumn hownerColumn
    (by rw [Finmap.lookup_insert]; rfl), ?_⟩
  · change (mallow.load schema (.obj data)).map fillDefaults = _
    rw [hload]
    rfl
  · exact repeats_of_ofDict ht hnodup hdict hmetadata rfl rfl rfl rfl

theorem putsBack_admin (hm : mallow.Specified) (ht : ∀ v, text (.ofNullable v) = v)
    (hw : Constraints w.database) (hs : s ∈ w.database) (ha : s.Admitted mallow.toMallow)
    (hregistered : (w.handler.subscriptionCallbacks s.uuid).isSome) {access : Access}
    (htenant : access.autodetect = .ok s.ownerTenantUuid) {tenantUuids : List String}
    (hvisible : access.visibleTenants true = .ok tenantUuids)
    (hmem : s.ownerTenantUuid ∈ tenantUuids) :
    PutsBack w s (UserRequest.serveAdmin mallow text master none access (.get s.uuid))
      fun json order =>
        UserRequest.serveAdmin mallow text master none access (.put s.uuid json order) := by
  have hv : Visible tenantUuids none s := ⟨fun _ => hmem, nofun⟩
  constructor
  · have hget : exec (SubscriptionService.get none s.uuid tenantUuids none) w = (.ok s, w) := by
      unfold SubscriptionService.get
      rw [exec_get_, if_neg nofun, find_self hw hs hv]
    change exec (raising AdminError.access (ofExcept (access.visibleTenants true)) >>= _) w = _
    rw [hvisible, exec_bind_of_ok (exec_raising_of_ok _ (exec_ofExcept _ w)),
      exec_bind_of_ok (exec_raising_of_ok _ hget)]
    rfl
  · intro config metadata hconfig hmetadata order
    obtain ⟨d, k, hload, hk, hrepeats⟩ := exists_kwargs_of_shown hm ht ha hconfig hmetadata
    obtain ⟨s', w', hok, hdump, hd⟩ :=
      exec_update_repeats master hw hs hv hregistered hrepeats order
    refine ⟨w', ?_, hd⟩
    change exec (adminBody mallow access (subscriptionJson (dump s) config metadata) >>= _) w = _
    rw [exec_bind_of_ok (exec_adminBody_ok hload htenant), hvisible,
      exec_bind_of_ok (exec_raising_of_ok _ (exec_ofExcept _ w)),
      exec_bind_of_ok (exec_raising_of_ok _ (exec_keywords hk)),
      exec_bind_of_ok (exec_raising_of_ok _ hok), hdump]
    rfl

end Endpoints

/-- What was read puts back what it was: in every state that the requests reach in which the
subscription is registered, as it is when no step of them failed. -/
theorem put_back_identity {mallow : AdminMallow} (hm : mallow.Specified)
    {text : Json → Option String} (ht : ∀ v, text (.ofNullable v) = v)
    (master exchangeType : String) {actions : List RestAction}
    (hactions : ∀ a ∈ actions, a.Proper) {s : Subscription} :
    let w := (RestApi.after mallow text master exchangeType actions).world
    s ∈ w.database →
    ((∀ a ∈ actions, a.fault = none) ∨ (w.handler.subscriptionCallbacks s.uuid).isSome) →
    (∀ access : Access, ∀ tenantUuids, access.autodetect = .ok s.ownerTenantUuid →
      access.visibleTenants true = .ok tenantUuids → s.ownerTenantUuid ∈ tenantUuids →
        PutsBack w s (UserRequest.serveAdmin mallow text master none access (.get s.uuid))
          fun json order =>
            UserRequest.serveAdmin mallow text master none access (.put s.uuid json order)) ∧
    ∀ token : AnyToken, token.tenantUuid = s.ownerTenantUuid → token.userUuid = s.ownerUserUuid →
      PutsBack w s (UserRequest.serveMe mallow.toMallow text master none token (.get s.uuid))
        fun json order =>
          UserRequest.serveMe mallow.toMallow text master none token (.put s.uuid json order) := by
  intro w hs hregistered
  have hstr : ∀ v, text (.str v) = some v := fun v => ht (some v)
  have hinvariant := restInvariant_after master hm hstr exchangeType hactions
  have hrow : (w.handler.subscriptionCallbacks s.uuid).isSome :=
    hregistered.elim (fun hquiet => hinvariant.registered hquiet s hs) id
  have hadmitted := hinvariant.admitted s hs
  constructor
  · intro access tenantUuids htenant hvisible hmem
    exact putsBack_admin master hm ht hinvariant.constraints hs hadmitted hrow htenant hvisible hmem
  · intro token htenant huser
    exact putsBack_me master hm ht hinvariant.constraints hs hadmitted hrow htenant huser

/-- What a user posts is put back by the user and by an administrator of the tenant. -/
theorem put_back_identity_posted :
    let token : AnyToken := ⟨requestTenant, some storedUuid, requestTenant⟩
    let access : Access := ⟨.ok requestTenant, fun tenant => .ok [tenant]⟩
    let actions := [RestAction.me token none (.post storedUuid (bodyOfEvents ["call_created"]))]
    let w := (RestApi.after AdminMallow.plain Json.asString "master" "headers" actions).world
    ∃ s, w.database = [s] ∧ s.events = ["call_created"] ∧
      PutsBack w s (UserRequest.serveAdmin AdminMallow.plain Json.asString "master" none access
          (.get s.uuid)) (fun json order => UserRequest.serveAdmin AdminMallow.plain Json.asString
            "master" none access (.put s.uuid json order)) ∧
      PutsBack w s (UserRequest.serveMe AdminMallow.plain.toMallow Json.asString "master" none token
          (.get s.uuid)) (fun json order => UserRequest.serveMe AdminMallow.plain.toMallow
            Json.asString "master" none token (.put s.uuid json order)) := by
  intro token access actions w
  have ht : ∀ v, Json.asString (.ofNullable v) = v := fun v => by cases v <;> rfl
  have hactions : ∀ a ∈ actions, a.Proper := by
    intro a ha
    obtain rfl := List.mem_singleton.mp ha
    have huser : UuidColumn (some storedUuid) := by
      intro userUuid h
      obtain rfl := Option.some.inj h
      decide
    have hxivo : requestTenant.length = 36 := by decide
    refine ⟨huser, hxivo, fun json hjson => ?_⟩
    obtain rfl := Option.some.inj hjson
    exact distinct_bodyOfEvents _
  obtain ⟨s, hs, hevents, htenant, huser⟩ : ∃ s, w.database = [s] ∧ s.events = ["call_created"] ∧
      s.ownerTenantUuid = requestTenant ∧ s.ownerUserUuid = some storedUuid :=
    ⟨_, rfl, rfl, rfl, rfl⟩
  have hmem : s ∈ w.database := hs ▸ List.mem_singleton_self s
  obtain ⟨hadmin, hme⟩ := put_back_identity AdminMallow.specified_plain ht "master" "headers"
    hactions hmem (.inl fun a ha => List.mem_singleton.mp ha ▸ rfl)
  have hautodetect : access.autodetect = .ok s.ownerTenantUuid := htenant ▸ rfl
  have hvisible : s.ownerTenantUuid ∈ [requestTenant] := List.mem_singleton.mpr htenant
  have hputAdmin := hadmin access [requestTenant] hautodetect rfl hvisible
  have hputMe := hme token htenant.symm huser.symm
  exact ⟨s, hs, hevents, hputAdmin, hputMe⟩

end WazoWebhookd

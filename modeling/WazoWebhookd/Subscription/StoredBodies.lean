import WazoWebhookd.Subscription.AcceptedBodies
import WazoWebhookd.Subscription.AllOrNothing
import WazoWebhookd.Subscription.TenantMoves
import Mathlib.Data.List.ReduceOption

/-! What the store keeps of a body that the schema of the administrators accepts. -/
namespace WazoWebhookd
open Failing SubscriptionService

def SchemaKwargs.uuids (k : SchemaKwargs) : List String :=
  [k.eventsWazoUuid.join, k.eventsUserUuid.join, k.ownerUserUuid.join,
    k.ownerTenantUuid].reduceOption

def SchemaKwargs.texts (k : SchemaKwargs) : List String :=
  k.name :: k.service :: (k.uuids ++ k.events ++
    (k.config ++ k.metadata).flatMap fun p => p.1 :: p.2.toList)

/-- The rows cannot be written when the driver does not store one of the texts, or when one is
too long for its column. -/
def SchemaKwargs.flushFault (stores : String → Bool) (k : SchemaKwargs) : Option Fault :=
  if (∀ t ∈ k.texts, stores t) ∧ ∀ uuid ∈ k.uuids, uuid.length ≤ 36 then none else some .flush

/-- The subscription is what a loaded dictionary says. -/
structure Subscription.Holds (s : Subscription) (d : LoadedDict) : Prop where
  name : d.lookup "name" = some (.str s.name)
  service : d.lookup "service" = some (.str s.service)
  config : ∃ config, d.lookup "config" = some (stringObject config) ∧
    s.config = dictOf (config.map fun p => (p.1, some p.2))
  events : ∃ events : List String, d.lookup "events" = some (.arr (events.map .str)) ∧
    s.events.Perm events
  metadata : ∃ metadata, (d.lookup "metadata_").getD (.obj []) = stringObject metadata ∧
    s.metadata = dictOf (metadata.map fun p => (p.1, some p.2))
  eventsUserUuid : d.lookup "events_user_uuid" = some (.ofNullable s.eventsUserUuid)
  eventsWazoUuid : d.lookup "events_wazo_uuid" = some (.ofNullable s.eventsWazoUuid)
  ownerUserUuid : d.lookup "owner_user_uuid" = some (.ofNullable s.ownerUserUuid)
  ownerTenantUuid : d.lookup "owner_tenant_uuid" = some (.str s.ownerTenantUuid)

/-- The keyword arguments of an accepted body, the request's tenant among them. -/
structure SchemaKwargs.Of (k : SchemaKwargs) (tenantUuid : String) (d : LoadedDict) : Prop where
  ownerTenantUuid : k.ownerTenantUuid = some tenantUuid
  config_nodup : (k.config.map (·.1)).Nodup
  uuid_length : ∀ uuid ∈ k.uuids, uuid.length ≤ 36
  holds : ∀ s : Subscription, (s.clearRelations.fromSchema k).Holds d

section Load
variable {mallow : AdminMallow} {text : Json → Option String} {body : Json} {d : LoadedDict}
  {tenantUuid : String}

theorem mapM_asNullable (uuid : Option String) :
    (some (Json.ofNullable uuid)).mapM Json.asNullable = some (some uuid) := by
  cases uuid <;> rfl

theorem exists_kwargs_of_load (hm : mallow.Specified) (ht : ∀ s, text (.str s) = some s)
    (hbody : body.Distinct) (hload : loadSubscription mallow body = .ok d)
    (hmetadata : ∀ metadata, d.lookup "metadata_" = some (.obj metadata) →
      ∀ p ∈ metadata, ∃ s, p.2 = .str s) (htenant : tenantUuid.length = 36) :
    ∃ k, SchemaKwargs.ofDict text (d.insert "owner_tenant_uuid" (.str tenantUuid)) = some k ∧
      k.Of tenantUuid (d.insert "owner_tenant_uuid" (.str tenantUuid)) := by
  obtain ⟨⟨name, service, events, config, metadata, hb, haccepted⟩, huuids⟩ :=
    accepted_of_loadSubscription hm hbody hload
  obtain ⟨eventsUser, heventsUser, hlengthUser⟩ := huuids "events_user_uuid" (by decide)
  obtain ⟨eventsWazo, heventsWazo, hlengthWazo⟩ := huuids "events_wazo_uuid" (by decide)
  obtain ⟨ownerUser, hownerUser, hlengthOwner⟩ := huuids "owner_user_uuid" (by decide)
  have hstrings : ∀ p ∈ metadata, ∃ s, p.2 = .str s := by
    have hvalue := hb.metadata
    cases hv : d.lookup "metadata_" with
    | none =>
      rw [hv] at hvalue
      obtain rfl := Json.obj.inj hvalue
      simp
    | some v =>
      rw [hv] at hvalue
      exact hmetadata metadata (hv.trans (congrArg some hvalue))
  obtain ⟨metadata, rfl⟩ := Json.exists_map_str_fields hstrings
  set d' := d.insert "owner_tenant_uuid" (.str tenantUuid) with hd'
  have hother : ∀ key, key ≠ "owner_tenant_uuid" → d'.lookup key = d.lookup key := fun key hkey =>
    Finmap.lookup_insert_of_ne d hkey
  have hb' := hb.insert
    (show "owner_tenant_uuid" ∉ ["name", "service", "events", "config", "metadata_"] by decide)
    (.str tenantUuid)
  have hofDict := hb'.ofDict_eq text
    (by rw [← hd', hother _ (by decide), heventsWazo]; exact mapM_asNullable eventsWazo)
    (by rw [← hd', hother _ (by decide), heventsUser]; exact mapM_asNullable eventsUser)
    (by rw [← hd', hother _ (by decide), hownerUser]; exact mapM_asNullable ownerUser)
    (by rw [Finmap.lookup_insert]; rfl)
  simp only [List.map_map, Function.comp_def, ht] at hofDict
  refine ⟨_, hofDict, rfl, ?_, ?_, fun s => ?_⟩
  · simpa [Function.comp_def] using haccepted.config_nodup
  · intro uuid huuid
    simp only [SchemaKwargs.uuids, List.reduceOption_mem_iff, List.mem_cons, List.not_mem_nil,
      or_false, Option.join_some] at huuid
    rcases huuid with h | h | h | h
    · exact (hlengthWazo uuid h.symm).le
    · exact (hlengthUser uuid h.symm).le
    · exact (hlengthOwner uuid h.symm).le
    · rw [Option.some.inj h, htenant]
  · exact {
      name := hb'.name
      service := hb'.service
      config := ⟨config, hb'.config, fromSchema_cleared_config s _⟩
      events := ⟨events, hb'.events, List.Perm.of_eq (fromSchema_cleared_events s _)⟩
      metadata := ⟨metadata, hb'.metadata, fromSchema_cleared_metadata s _⟩
      eventsUserUuid := (hother _ (by decide)).trans heventsUser
      eventsWazoUuid := (hother _ (by decide)).trans heventsWazo
      ownerUserUuid := (hother _ (by decide)).trans hownerUser
      ownerTenantUuid := Finmap.lookup_insert d }

end Load

/-- A create that succeeds, and after which the new subscription is what the body says. -/
def CreateKeeps (master : String) (stores : String → Bool) (w : World) (uuid : String)
    (k : SchemaKwargs) (d : LoadedDict) : Prop :=
  ∃ s w', exec (create master (k.flushFault stores) uuid k) w = (.ok s, w') ∧
    ∃ s', exec (SubscriptionService.get none uuid [] none) w' = (.ok s', w') ∧ s'.Holds d

/-- An update that succeeds, and after which the stored subscription is what the body says. -/
def UpdateKeeps (master : String) (stores : String → Bool) (w : World) (uuid : String)
    (k : SchemaKwargs) (d : LoadedDict) (order tenants : List String) (user : Option String) :
    Prop :=
  ∃ s w', exec (update master (k.flushFault stores) uuid k order tenants user) w = (.ok s, w') ∧
    ∃ s', exec (SubscriptionService.get none uuid [] none) w' = (.ok s', w') ∧ s'.Holds d

section Keeps
variable {stores : String → Bool} {w : World} {uuid tenantUuid : String} {k : SchemaKwargs}
  {d : LoadedDict}

theorem exec_get_self (hc : Constraints w.database) {s : Subscription} (hs : s ∈ w.database)
    (huuid : s.uuid = uuid) :
    exec (SubscriptionService.get none uuid [] none) w = (.ok s, w) := by
  subst huuid
  unfold SubscriptionService.get
  rw [exec_get_, if_neg nofun, find_self hc hs ⟨by simp, by simp⟩]

theorem flushFault_eq_none (hk : k.Of tenantUuid d) :
    k.flushFault stores = none ↔ ∀ t ∈ k.texts, stores t := by
  unfold SchemaKwargs.flushFault
  split_ifs with h
  · exact iff_of_true rfl h.1
  · exact iff_of_false nofun fun hstores => h ⟨hstores, hk.uuid_length⟩

theorem flushFault_eq_some (h : k.flushFault stores ≠ none) :
    k.flushFault stores = some .flush := by
  unfold SchemaKwargs.flushFault at h ⊢
  split_ifs at h ⊢
  · exact absurd rfl h
  · rfl

theorem announced_create_eq (hk : k.Of tenantUuid d) :
    (ServiceCall.create uuid k).announced w.database =
      if Constraints (w.database ++ [(Subscription.blank uuid tenantUuid).fromSchema k])
      then some (.created ((Subscription.blank uuid tenantUuid).fromSchema k)) else none := by
  rw [ServiceCall.announced, hk.ownerTenantUuid]
  rfl

theorem constraints_created_iff (hw : Constraints w.database) (hk : k.Of tenantUuid d)
    (hfresh : ∀ t ∈ w.database, t.uuid ≠ uuid) :
    Constraints (w.database ++ [(Subscription.blank uuid tenantUuid).fromSchema k]) ↔
      k.events.Nodup := by
  have hevents : ((Subscription.blank uuid tenantUuid).fromSchema k).events = k.events :=
    fromSchema_cleared_events (Subscription.blank uuid tenantUuid) k
  constructor
  · intro hc
    exact hevents ▸ (hc.2 _ (List.mem_append_right _ List.mem_cons_self)).1
  · intro hn
    refine hw.append hfresh (hevents ▸ hn) ?_
    have hnames := fromSchema_cleared_optionNames (Subscription.blank uuid tenantUuid) k
    exact Eq.mpr (congrArg List.Nodup hnames) hk.config_nodup

theorem createKeeps_iff (master : String) (hw : Constraints w.database) (hk : k.Of tenantUuid d)
    (hfresh : ∀ t ∈ w.database, t.uuid ≠ uuid) :
    CreateKeeps master stores w uuid k d ↔ k.events.Nodup ∧ ∀ t ∈ k.texts, stores t := by
  have hconstraints := constraints_created_iff hw hk hfresh
  have hannounced : (ServiceCall.create uuid k).announced w.database =
      if Constraints (w.database ++ [(Subscription.blank uuid tenantUuid).fromSchema k])
      then some (.created ((Subscription.blank uuid tenantUuid).fromSchema k)) else none :=
    announced_create_eq hk
  rw [← hconstraints, ← flushFault_eq_none hk]
  constructor
  · rintro ⟨s, w', hok, -⟩
    by_contra hnot
    have hearly : (ServiceCall.create uuid k).announced w.database = none ∨
        k.flushFault stores = some .flush := by
      rcases not_and_or.mp hnot with hc | hf
      · exact .inl (hannounced.trans (if_neg hc))
      · exact .inr (flushFault_eq_some hf)
    obtain ⟨e, he⟩ := exec_create_early master hearly
    rw [he] at hok
    cases hok
  · rintro ⟨hc, hf⟩
    rw [if_pos hc] at hannounced
    have hfault : (none : Option Fault) ≠ some .flush := nofun
    obtain ⟨s, hs, hok⟩ := exec_create_announced master hannounced hfault
    cases hs
    unfold CreateKeeps
    rw [hf, hok]
    refine ⟨_, _, rfl, _, ?_, hk.holds (Subscription.blank uuid tenantUuid)⟩
    exact exec_get_self hc (List.mem_append_right _ List.mem_cons_self) rfl

theorem constraints_updated_iff (hw : Constraints w.database)
    (hn : (k.config.map (·.1)).Nodup) {s : Subscription} (hs : s ∈ w.database)
    (order : List String) :
    Constraints (liveAfter w.database (.updated (s.clearRelations.fromSchema k) order)) ↔
      k.events.Nodup := by
  have hevents := fromSchema_cleared_events s k
  have hmem : s.clearRelations.fromSchema k ∈
      liveAfter w.database (.updated (s.clearRelations.fromSchema k) order) :=
    (mem_liveAfter_updated order).mpr (.inl ⟨rfl, s, hs, rfl⟩)
  constructor
  · intro hc
    exact hevents ▸ (hc.2 _ hmem).1
  · intro hdistinct
    refine ⟨liveAfter_uuid_nodup hw.1 _ nofun, fun t ht => ?_⟩
    rcases (mem_liveAfter_updated order).mp ht with ⟨rfl, -⟩ | ⟨hold, -⟩
    · refine ⟨hevents ▸ hdistinct, ?_⟩
      rw [fromSchema_cleared_optionNames]
      exact hn
    · exact hw.2 t hold

theorem handle_updated_isOk (master : String) {h : SubscriptionBusEventHandler}
    (s : Subscription) (order : List String)
    (hregistered : (h.subscriptionCallbacks s.uuid).isSome) :
    (h.handle master (.updated s order)).isOk := by
  obtain ⟨row, hrow⟩ := Option.isSome_iff_exists.mp hregistered
  rw [SubscriptionBusEventHandler.handle, SubscriptionBusEventHandler.update_of_some hrow]
  rfl

theorem updateKeeps_iff (master : String) (hw : Constraints w.database) (hk : k.Of tenantUuid d)
    (order : List String) {tenants : List String} {user : Option String} {s : Subscription}
    (hs : find w.database uuid tenants user = some s)
    (hregistered : (w.handler.subscriptionCallbacks uuid).isSome) :
    UpdateKeeps master stores w uuid k d order tenants user ↔
      k.events.Nodup ∧ ∀ t ∈ k.texts, stores t := by
  obtain ⟨hmem, huuid, -⟩ := mem_of_find hs
  have hconstraints := constraints_updated_iff hw hk.config_nodup hmem order
  rw [← hconstraints, ← flushFault_eq_none hk]
  constructor
  · rintro ⟨s', w', hok, -⟩
    by_contra hnot
    have hfails : ∀ t, ¬ UpdateSucceeds master (k.flushFault stores) w uuid k order tenants user
        t := by
      rintro t ⟨hf, hfound, hc, -⟩
      obtain rfl := Option.some.inj (hfound.symm.trans hs)
      exact hnot ⟨hc, hf⟩
    obtain ⟨e, w'', he, -⟩ := exec_update_fails hw hfails
    rw [he] at hok
    cases hok
  · rintro ⟨hc, hf⟩
    have hhandled := handle_updated_isOk master (s.clearRelations.fromSchema k) order
      (huuid.symm ▸ hregistered)
    obtain ⟨w', hok, hd⟩ := exec_update_succeeds hw
      (⟨hf, hs, hc, hhandled⟩ : UpdateSucceeds master _ w uuid k order tenants user s)
    refine ⟨_, w', hok, s.clearRelations.fromSchema k, exec_get_self (hd ▸ hc) ?_ huuid,
      hk.holds s⟩
    exact hd ▸ (mem_liveAfter_updated order).mpr (.inl ⟨rfl, s, hmem, rfl⟩)

end Keeps

/-- A body that the schema accepts is stored as it is exactly when no event is in it twice and
the driver stores all its texts. A stored subscription is registered in the handler. -/
theorem store_keeps_iff {mallow : AdminMallow} (hm : mallow.Specified)
    (text : Json → Option String) (ht : ∀ s, text (.str s) = some s) (stores : String → Bool)
    (master : String) {body : Json} (hbody : body.Distinct) {d : LoadedDict}
    (hload : loadSubscription mallow body = .ok d)
    (hmetadata : ∀ metadata, d.lookup "metadata_" = some (.obj metadata) →
      ∀ p ∈ metadata, ∃ s, p.2 = .str s) (tenantUuid : String) (htenant : tenantUuid.length = 36)
    {w : World} (hw : Constraints w.database) :
    let subscription := d.insert "owner_tenant_uuid" (.str tenantUuid)
    ∃ k, SchemaKwargs.ofDict text subscription = some k ∧
      (∀ uuid, (∀ t ∈ w.database, t.uuid ≠ uuid) →
        (CreateKeeps master stores w uuid k subscription ↔
          k.events.Nodup ∧ ∀ t ∈ k.texts, stores t)) ∧
      ∀ uuid order tenants user, (find w.database uuid tenants user).isSome →
        (w.handler.subscriptionCallbacks uuid).isSome →
        (UpdateKeeps master stores w uuid k subscription order tenants user ↔
          k.events.Nodup ∧ ∀ t ∈ k.texts, stores t) := by
  intro subscription
  obtain ⟨k, hofDict, hk⟩ := exists_kwargs_of_load hm ht hbody hload hmetadata htenant
  refine ⟨k, hofDict, fun uuid hfresh => createKeeps_iff master hw hk hfresh, ?_⟩
  intro uuid order tenants user hfound hregistered
  obtain ⟨s, hs⟩ := Option.isSome_iff_exists.mp hfound
  exact updateKeeps_iff master hw hk order hs hregistered

/-- PostgreSQL has no text with a null character. -/
def storesText (s : String) : Bool := '\x00' ∉ s.toList

def bodyOfEvents (events : List String) : Json :=
  .obj [("name", .str "s"), ("service", .str "mobile"), ("events", .arr (events.map .str)),
    ("config", .obj [])]

theorem distinct_bodyOfEvents (events : List String) : (bodyOfEvents events).Distinct := by
  refine .obj (by simp) fun p hp => ?_
  simp only [List.mem_cons, List.not_mem_nil, or_false] at hp
  rcases hp with rfl | rfl | rfl | rfl
  · exact .str _
  · exact .str _
  · refine .arr fun item hitem => ?_
    obtain ⟨event, -, rfl⟩ := List.mem_map.mp hitem
    exact .str event
  · exact .obj List.nodup_nil nofun

def requestTenant : String := "6c6d3b6c-58cb-4f5c-9a0e-0f1f0c1f7a03"

def storedUuid : String := "8b6d3f5e-0d3f-4f0e-9a53-3b8b1d3f5e01"

def storedWorld : World :=
  let s := Subscription.blank storedUuid requestTenant
  ⟨[s], (SubscriptionBusEventHandler.init "headers").register "master" s, [], []⟩

theorem store_keeps_iff_two_events :
    ∃ d k, loadSubscription AdminMallow.plain (bodyOfEvents ["call_created", "call_ended"]) =
        .ok d ∧
      SchemaKwargs.ofDict Json.asString (d.insert "owner_tenant_uuid" (.str requestTenant)) =
        some k ∧
      CreateKeeps "master" storesText emptyWorld storedUuid k
        (d.insert "owner_tenant_uuid" (.str requestTenant)) ∧
      UpdateKeeps "master" storesText storedWorld storedUuid k
        (d.insert "owner_tenant_uuid" (.str requestTenant))
        ["call_ended", "call_created"] [] none := by
  have hstrings : ∀ metadata : List (String × Json), (none : Option Json) = some (.obj metadata) →
      ∀ p ∈ metadata, ∃ s, p.2 = .str s := nofun
  obtain ⟨k, hk, hcreate, -⟩ := store_keeps_iff AdminMallow.specified_plain Json.asString
    (fun _ => rfl) storesText "master" (distinct_bodyOfEvents ["call_created", "call_ended"]) rfl
    hstrings requestTenant (by decide) agreeing_emptyWorld.constraints
  obtain ⟨k', hk', -, hupdate⟩ := store_keeps_iff AdminMallow.specified_plain
    Json.asString (fun _ => rfl) storesText "master"
    (distinct_bodyOfEvents ["call_created", "call_ended"]) rfl hstrings requestTenant (by decide)
    (show Constraints storedWorld.database by decide)
  obtain rfl := Option.some.inj (hk.symm.trans hk')
  obtain rfl := Option.some.inj ((rfl : _ = some _).symm.trans hk)
  refine ⟨_, _, rfl, rfl, (hcreate storedUuid nofun).mpr (by decide), ?_⟩
  exact (hupdate storedUuid _ [] none rfl rfl).mpr (by decide)

/-- A body with an event twice is accepted by the schema and refused by the database. -/
theorem repeated_event_refused :
    ∃ d k, loadSubscription AdminMallow.plain (bodyOfEvents ["call_created", "call_created"]) =
        .ok d ∧
      SchemaKwargs.ofDict Json.asString (d.insert "owner_tenant_uuid" (.str requestTenant)) =
        some k ∧
      (exec (create "master" (k.flushFault storesText) storedUuid k) emptyWorld).1 =
        .error .integrityError ∧
      (exec (update "master" (k.flushFault storesText) storedUuid k ["call_created"] [] none)
        storedWorld).1 = .error .integrityError ∧
      ¬ CreateKeeps "master" storesText emptyWorld storedUuid k
        (d.insert "owner_tenant_uuid" (.str requestTenant)) ∧
      ¬ UpdateKeeps "master" storesText storedWorld storedUuid k
        (d.insert "owner_tenant_uuid" (.str requestTenant)) ["call_created"] [] none := by
  refine ⟨_, _, rfl, rfl, rfl, rfl, ?_, ?_⟩
  · rintro ⟨s, w', hok, -⟩
    cases congrArg Prod.fst hok
  · rintro ⟨s, w', hok, -⟩
    cases congrArg Prod.fst hok

end WazoWebhookd

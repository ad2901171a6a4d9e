import WazoWebhookd.Library.Dictionary

/-! The stored subscription and what it shows of its child rows. -/
namespace WazoWebhookd

structure SubscriptionEvent where
  eventName : String
  deriving DecidableEq

structure SubscriptionOption where
  name : String
  value : Option String
  deriving DecidableEq

structure SubscriptionMetadatum where
  key : String
  value : Option String
  deriving DecidableEq

structure Subscription where
  uuid : String
  name : String
  service : String
  eventsUserUuid : Option String
  eventsWazoUuid : Option String
  ownerUserUuid : Option String
  ownerTenantUuid : String
  eventsRel : List SubscriptionEvent
  optionsRel : List SubscriptionOption
  metadataRel : List SubscriptionMetadatum
  deriving DecidableEq

abbrev StringDict := Finmap fun _ : String => Option String

/-- A dictionary comprehension: a later pair replaces an earlier one of the same key. -/
def dictOf (pairs : List (String × Option String)) : StringDict :=
  pairs.foldl (fun d p => d.insert p.1 p.2) ∅

theorem lookup_dictOf {pairs : List (String × Option String)} (hn : (pairs.map (·.1)).Nodup)
    (key : String) : (dictOf pairs).lookup key = pairs.lookup key :=
  Finmap.lookup_foldl_insert hn key

theorem dictOf_perm {pairs pairs' : List (String × Option String)}
    (hn : (pairs.map (·.1)).Nodup) (h : pairs.Perm pairs') : dictOf pairs = dictOf pairs' := by
  have hn' : (pairs'.map (·.1)).Nodup := (h.map _).nodup_iff.mp hn
  refine Finmap.ext_lookup fun key => ?_
  rw [lookup_dictOf hn, lookup_dictOf hn']
  refine Option.ext fun value => ?_
  rw [KeyedList.lookup_eq_some_iff_mem hn, KeyedList.lookup_eq_some_iff_mem hn', h.mem_iff]

theorem perm_of_dictOf {pairs pairs' : List (String × Option String)}
    (hn : (pairs.map (·.1)).Nodup) (hn' : (pairs'.map (·.1)).Nodup)
    (h : dictOf pairs = dictOf pairs') : pairs.Perm pairs' := by
  refine KeyedList.perm_of_lookup hn hn' fun key => ?_
  rw [← lookup_dictOf hn, ← lookup_dictOf hn', h]

namespace Subscription

def config (s : Subscription) : StringDict := dictOf (s.optionsRel.map fun o => (o.name, o.value))

def metadata (s : Subscription) : StringDict := dictOf (s.metadataRel.map fun m => (m.key, m.value))

def events (s : Subscription) : List String := s.eventsRel.map (·.eventName)

/-- `Subscription()`, with the key the server gives it and the tenant it cannot be without. -/
def blank (uuid ownerTenantUuid : String) : Subscription where
  uuid := uuid
  name := ""
  service := ""
  eventsUserUuid := none
  eventsWazoUuid := none
  ownerUserUuid := none
  ownerTenantUuid := ownerTenantUuid
  eventsRel := []
  optionsRel := []
  metadataRel := []

def clearRelations (s : Subscription) : Subscription :=
  { s with optionsRel := [], eventsRel := [], metadataRel := [] }

end Subscription

/-- The keyword arguments of `from_schema`; a missing ownership argument is `_NOTSET`. -/
structure SchemaKwargs where
  name : String
  service : String
  config : List (String × Option String)
  events : List String
  metadata : List (String × Option String)
  eventsWazoUuid : Option (Option String)
  eventsUserUuid : Option (Option String)
  ownerUserUuid : Option (Option String)
  ownerTenantUuid : Option String

def Subscription.fromSchema (s : Subscription) (k : SchemaKwargs) : Subscription :=
  { s with
    name := k.name
    service := k.service
    optionsRel := s.optionsRel ++ k.config.map fun p => ⟨p.1, p.2⟩
    eventsRel := s.eventsRel ++ k.events.map fun name => ⟨name⟩
    metadataRel := s.metadataRel ++ k.metadata.map fun p => ⟨p.1, p.2⟩
    eventsUserUuid := k.eventsUserUuid.getD s.eventsUserUuid
    eventsWazoUuid := k.eventsWazoUuid.getD s.eventsWazoUuid
    ownerUserUuid := k.ownerUserUuid.getD s.ownerUserUuid
    ownerTenantUuid := k.ownerTenantUuid.getD s.ownerTenantUuid }

section FromSchema
variable (s : Subscription) (k : SchemaKwargs)

theorem fromSchema_cleared_events : (s.clearRelations.fromSchema k).events = k.events := by
  simp [Subscription.fromSchema, Subscription.clearRelations, Subscription.events,
    Function.comp_def]

theorem fromSchema_cleared_options :
    (s.clearRelations.fromSchema k).optionsRel = k.config.map fun p => ⟨p.1, p.2⟩ := by
  simp [Subscription.fromSchema, Subscription.clearRelations]

theorem fromSchema_cleared_config : (s.clearRelations.fromSchema k).config = dictOf k.config := by
  unfold Subscription.config
  rw [fromSchema_cleared_options, List.map_map]
  exact congrArg dictOf (List.map_id _)

theorem fromSchema_cleared_metadata :
    (s.clearRelations.fromSchema k).metadata = dictOf k.metadata := by
  have hrel : (s.clearRelations.fromSchema k).metadataRel = k.metadata.map fun p => ⟨p.1, p.2⟩ := by
    simp [Subscription.fromSchema, Subscription.clearRelations]
  unfold Subscription.metadata
  rw [hrel, List.map_map]
  exact congrArg dictOf (List.map_id _)

theorem fromSchema_cleared_optionNames :
    (s.clearRelations.fromSchema k).optionsRel.map (·.name) = k.config.map (·.1) := by
  rw [fromSchema_cleared_options, List.map_map]
  rfl

end FromSchema

/-- The primary key and the unique constraints of the tables. -/
def Constraints (database : List Subscription) : Prop :=
  (database.map (·.uuid)).Nodup ∧
    ∀ s ∈ database, s.events.Nodup ∧ (s.optionsRel.map (·.name)).Nodup

instance (database : List Subscription) : Decidable (Constraints database) :=
  inferInstanceAs (Decidable (_ ∧ _))

theorem Constraints.uuid_inj {database : List Subscription} (hc : Constraints database)
    {s t : Subscription} (hs : s ∈ database) (ht : t ∈ database) (h : s.uuid = t.uuid) : s = t :=
  List.inj_on_of_nodup_map hc.1 hs ht h

theorem Constraints.filter {database : List Subscription} (hc : Constraints database)
    (p : Subscription → Bool) : Constraints (database.filter p) := by
  refine ⟨hc.1.sublist (List.filter_sublist.map _), ?_⟩
  exact fun s hs => hc.2 s (List.mem_filter.mp hs).1

theorem Constraints.append {database : List Subscription} (hc : Constraints database)
    {s : Subscription} (hfresh : ∀ t ∈ database, t.uuid ≠ s.uuid) (hevents : s.events.Nodup)
    (hoptions : (s.optionsRel.map (·.name)).Nodup) : Constraints (database ++ [s]) := by
  constructor
  · rw [List.map_append, List.nodup_append]
    refine ⟨hc.1, List.nodup_singleton _, ?_⟩
    intro uuid hmem uuid' hmem'
    obtain ⟨t, ht, rfl⟩ := List.mem_map.mp hmem
    rw [List.map_singleton, List.mem_singleton] at hmem'
    exact hmem' ▸ hfresh t ht
  · intro t ht
    rcases List.mem_append.mp ht with hold | hnew
    · exact hc.2 t hold
    · rw [List.mem_singleton.mp hnew]
      exact ⟨hevents, hoptions⟩

theorem Constraints.filter_notMem {database : List Subscription} (hc : Constraints database)
    {p : Subscription → Prop} [DecidablePred p] {uuids : List String}
    (h : ∀ uuid, uuid ∈ uuids ↔ ∃ s ∈ database, p s ∧ s.uuid = uuid) :
    (database.filter fun t => t.uuid ∉ uuids) = database.filter fun t => ¬ p t := by
  refine List.filter_congr fun t ht => ?_
  rw [decide_eq_decide, not_iff_not, h]
  constructor
  · rintro ⟨s, hs, hp, huuid⟩
    exact hc.uuid_inj hs ht huuid ▸ hp
  · exact fun hp => ⟨t, ht, hp, rfl⟩

/-- What `subscription_schema.dump` gives of a stored subscription. -/
structure SubscriptionDict where
  uuid : String
  name : String
  service : String
  events : List String
  eventsUserUuid : Option String
  eventsWazoUuid : Option String
  config : StringDict
  ownerUserUuid : Option String
  ownerTenantUuid : String
  metadata : StringDict
  deriving DecidableEq

def dump (s : Subscription) : SubscriptionDict where
  uuid := s.uuid
  name := s.name
  service := s.service
  events := s.events
  eventsUserUuid := s.eventsUserUuid
  eventsWazoUuid := s.eventsWazoUuid
  config := s.config
  ownerUserUuid := s.ownerUserUuid
  ownerTenantUuid := s.ownerTenantUuid
  metadata := s.metadata

structure UserSubscriptionDict where
  uuid : String
  name : String
  service : String
  events : List String
  config : StringDict
  metadata : StringDict
  deriving DecidableEq

def userDump (s : Subscription) : UserSubscriptionDict where
  uuid := s.uuid
  name := s.name
  service := s.service
  events := s.events
  config := s.config
  metadata := s.metadata

/-- Python's truth value of an optional string. -/
def truthy : Option String → Option String
  | some "" => none
  | s => s

@[simp] theorem truthy_none : truthy none = none := rfl

theorem truthy_of_ne {user : Option String} (h : user ≠ some "") : truthy user = user := by
  unfold truthy
  split
  · exact absurd rfl h
  · rfl

theorem truthy_isSome_iff {user : Option String} :
    (truthy user).isSome ↔ user.isSome ∧ user ≠ some "" := by
  by_cases h : user = some ""
  · simp [h, truthy]
  · simp [h, truthy_of_ne h]

end WazoWebhookd

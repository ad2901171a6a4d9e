import WazoWebhookd.Database.Models
import WazoWebhookd.Library.Json

/-! The schema of the user endpoints, and what becomes of a body it accepts. -/
namespace WazoWebhookd

/-- How a load fails: with the messages of a `ValidationError`, or in a hook. -/
inductive LoadError
  | validationError (messages : Json)
  | attributeError
  | keyError (key : String)

/-- A field deserializes a value given the object it comes from. -/
structure Field where
  name : String
  dataKey : String
  deserialize : List (String × Json) → Json → Except LoadError Json
  required : Bool := false
  dumpOnly : Bool := false

/-- What a schema does with a key that is none of its fields'. -/
inductive Unknown
  | raise
  | exclude
  deriving DecidableEq

structure Schema where
  unknown : Unknown
  fields : List Field
  name_nodup : (fields.map (·.name)).Nodup

/-- The fields `load` reads. -/
def Schema.loadFields (schema : Schema) : List Field := schema.fields.filter fun f => !f.dumpOnly

abbrev LoadedDict := Finmap fun _ : String => Json

/-- What the schemas use of the libraries: `Schema.load` without its hooks, the fields with
their validators, and the error of a field that is null. -/
structure Mallow where
  load : Schema → Json → Except LoadError LoadedDict
  uuid : Json → Except LoadError Json
  string : ℕ → Json → Except LoadError Json
  list : (Json → Except LoadError Json) → Json → Except LoadError Json
  dict : Json → Except LoadError Json
  stringDict : Json → Except LoadError Json
  oneOf : List String → String → Except LoadError Unit
  nullError : LoadError
  boolean : String → Except LoadError Bool

/-- What marshmallow documents of them. -/
structure Mallow.Documented (mallow : Mallow) : Prop where
  excludes : ∀ {schema body d}, schema.unknown = .exclude → mallow.load schema body = .ok d →
    ∀ key ∈ d, ∃ f ∈ schema.loadFields, f.name = key
  requires : ∀ {schema body d}, mallow.load schema body = .ok d →
    ∀ f ∈ schema.loadFields, f.required → f.name ∈ d
  deserializes : ∀ {schema body d}, mallow.load schema body = .ok d →
    ∀ f ∈ schema.loadFields, ∀ v, d.lookup f.name = some v →
      ∃ data raw, body = .obj data ∧ data.lookup f.dataKey = some raw ∧
        f.deserialize data raw = .ok v
  string : ∀ {max raw v}, mallow.string max raw = .ok v → ∃ s, v = .str s
  list : ∀ {field raw v}, mallow.list field raw = .ok v →
    ∃ items, v = .arr items ∧ ∀ item ∈ items, ∃ raw, field raw = .ok item
  dict : ∀ {raw v}, mallow.dict raw = .ok v → ∃ fields, v = .obj fields
  stringDict : ∀ {raw v}, mallow.stringDict raw = .ok v → ∃ fields, v = .obj fields

section Schemas
variable (mallow : Mallow)

def validMethods : List String := ["head", "get", "post", "put", "delete"]

def httpSubscriptionConfigSchema : Schema where
  unknown := .raise
  fields := [
    { name := "body", dataKey := "body", deserialize := fun _ => mallow.string 16384 },
    { name := "method", dataKey := "method", deserialize := fun _ => mallow.string 64,
      required := true },
    { name := "url", dataKey := "url", deserialize := fun _ => mallow.string 8192,
      required := true },
    { name := "verify_certificate", dataKey := "verify_certificate",
      deserialize := fun _ => mallow.string 1024 },
    { name := "content_type", dataKey := "content_type",
      deserialize := fun _ => mallow.string 256 }]
  name_nodup := by simp

/-- The hook before the load; what has no `get` and no `pop` is an `AttributeError`. -/
def removeNoneValues (schema : Schema) : Json → Except LoadError Json
  | .obj config =>
    let optionalKeys := (schema.fields.filter fun f => !f.required).map (·.name)
    .ok (.obj (config.filter fun p => !(p.2.isNull && p.1 ∈ optionalKeys)))
  | _ => .error .attributeError

def validateMethod : Json → Except LoadError Unit
  | .str method => mallow.oneOf validMethods method.toLower
  | _ => .error .attributeError

def validateVerify : Json → Except LoadError Unit
  | .str verify =>
    if verify ∈ ["true", "false"] ∨ verify.startsWith "/" then .ok ()
    else .error (.validationError (.obj [("message", .str "Wrong value for verify_certificate"),
      ("constraint_id", .str "verify-certificate-invalid"),
      ("constraint", .arr [.str "true", .str "false", .str "/*"])]))
  | _ => .error .attributeError

/-- The hook after the load. The lower case of the other letters does not matter: none of them
is in a valid method. -/
def lowercaseMethod (data : LoadedDict) : Except LoadError LoadedDict :=
  match data.lookup "method" with
  | some (.str method) => .ok (data.insert "method" (.str method.toLower))
  | some _ => .error .attributeError
  | none => .error (.keyError "method")

def loadHttpConfig (config : Json) : Except LoadError LoadedDict := do
  let schema := httpSubscriptionConfigSchema mallow
  let data ← mallow.load schema (← removeNoneValues schema config)
  (data.lookup "method").forM (validateMethod mallow)
  (data.lookup "verify_certificate").forM validateVerify
  lowercaseMethod data

def Schema.toJson (schema : Schema) (d : LoadedDict) : Json :=
  .obj (schema.loadFields.filterMap fun f => (d.lookup f.name).map fun v => (f.name, v))

/-- `ConfigField`: the service next to it tells what a config looks like. -/
def configField (data : List (String × Json)) : Json → Except LoadError Json
  | .null => .error mallow.nullError
  | value =>
    match data.lookup "service" with
    -- A list or a dictionary cannot be looked up in `_options`.
    | some (.arr _) | some (.obj _) =>
      .error (.validationError (.obj [("message", .str "Invalid destination"),
        ("constraint_id", .str "destination-type"),
        ("constraint", .obj [("type", .str "string")])]))
    | some (.str "http") =>
      (loadHttpConfig mallow value).map (httpSubscriptionConfigSchema mallow).toJson
    | _ => mallow.stringDict value

def userSubscriptionSchema : Schema where
  unknown := .exclude
  fields := [
    { name := "uuid", dataKey := "uuid", deserialize := fun _ => mallow.uuid, dumpOnly := true },
    { name := "name", dataKey := "name", deserialize := fun _ => mallow.string 128,
      required := true },
    { name := "service", dataKey := "service", deserialize := fun _ => mallow.string 128,
      required := true },
    { name := "events", dataKey := "events",
      deserialize := fun _ => mallow.list (mallow.string 128), required := true },
    { name := "config", dataKey := "config", deserialize := configField mallow,
      required := true },
    { name := "metadata_", dataKey := "metadata", deserialize := fun _ => mallow.dict }]
  name_nodup := by simp

end Schemas

/-- `search.split(':', 1)` of a search with a colon. -/
def splitColon (search : String) : Option (String × String) :=
  match search.toList.span (· ≠ ':') with
  | (_, []) => none
  | (key, _ :: value) => some (String.ofList key, String.ofList value)

abbrev SearchMetadata := Finmap fun _ : String => String

def aggregateSearchMetadata (args : List (String × String)) : SearchMetadata :=
  ((args.filter fun p => p.1 = "search_metadata").filterMap fun p => splitColon p.2).foldl
    (fun metadata p => metadata.insert p.1 p.2) ∅

structure SubscriptionListParams where
  searchMetadata : SearchMetadata
  recurse : Bool

def loadListParams (mallow : Mallow) (args : List (String × String)) :
    Except LoadError SubscriptionListParams := do
  let recurse ← match args.lookup "recurse" with
    | none => pure false
    | some recurse => mallow.boolean recurse
  pure ⟨aggregateSearchMetadata args, recurse⟩

/-- `from_schema(**new_subscription)`: the dictionary as keyword arguments, its options and
metadata as the database driver writes them. `none` where the call is a `TypeError`. -/
def SchemaKwargs.ofDict (text : Json → Option String) (d : LoadedDict) : Option SchemaKwargs := do
  let name ← (← d.lookup "name").asString
  let service ← (← d.lookup "service").asString
  let config ← (← d.lookup "config").asFields
  let events ← (← d.lookup "events").asStrings
  let metadata ← ((d.lookup "metadata_").getD (.obj [])).asFields
  pure {
    name := name
    service := service
    config := config.map fun p => (p.1, text p.2)
    events := events
    metadata := metadata.map fun p => (p.1, text p.2)
    eventsWazoUuid := ← (d.lookup "events_wazo_uuid").mapM Json.asNullable
    eventsUserUuid := ← (d.lookup "events_user_uuid").mapM Json.asNullable
    ownerUserUuid := ← (d.lookup "owner_user_uuid").mapM Json.asNullable
    ownerTenantUuid := ← (d.lookup "owner_tenant_uuid").mapM Json.asString }

section Load
variable {mallow : Mallow} {schema : Schema} {body : Json} {d : LoadedDict}

theorem Mallow.Documented.lookup_required (hm : mallow.Documented)
    (h : mallow.load schema body = .ok d) {f : Field} (hf : f ∈ schema.loadFields)
    (hr : f.required) :
    ∃ v data raw, d.lookup f.name = some v ∧ f.deserialize data raw = .ok v := by
  obtain ⟨v, hv⟩ := Finmap.mem_iff.mp (hm.requires h f hf hr)
  obtain ⟨data, raw, -, -, hraw⟩ := hm.deserializes h f hf v hv
  exact ⟨v, data, raw, hv, hraw⟩

theorem Mallow.Documented.lookup_excluded (hm : mallow.Documented)
    (hx : schema.unknown = .exclude) (h : mallow.load schema body = .ok d) {key : String}
    (hk : key ∉ schema.loadFields.map (·.name)) : d.lookup key = none := by
  rw [Finmap.lookup_eq_none]
  intro hmem
  obtain ⟨f, hf, hname⟩ := hm.excludes hx h key hmem
  exact hk (hname ▸ List.mem_map_of_mem hf)

theorem exists_string_of_httpField {f : Field}
    (hf : f ∈ (httpSubscriptionConfigSchema mallow).loadFields) :
    ∃ max, f.deserialize = fun _ => mallow.string max := by
  have hmem := (List.mem_filter.mp hf).1
  simp only [httpSubscriptionConfigSchema, List.mem_cons, List.not_mem_nil, or_false] at hmem
  rcases hmem with rfl | rfl | rfl | rfl | rfl <;> exact ⟨_, rfl⟩

theorem httpField_mem (i : Fin 5) : (httpSubscriptionConfigSchema mallow).loadFields.get i ∈
    (httpSubscriptionConfigSchema mallow).loadFields :=
  List.get_mem (httpSubscriptionConfigSchema mallow).loadFields i

theorem exists_str_of_httpField (hm : mallow.Documented)
    (h : mallow.load (httpSubscriptionConfigSchema mallow) body = .ok d) {f : Field}
    (hf : f ∈ (httpSubscriptionConfigSchema mallow).loadFields) {v : Json}
    (hv : d.lookup f.name = some v) : ∃ s, v = .str s := by
  obtain ⟨data, raw, -, -, hok⟩ := hm.deserializes h f hf v hv
  obtain ⟨max, hmax⟩ := exists_string_of_httpField hf
  rw [hmax] at hok
  exact hm.string hok

theorem lookup_method_of_load (hm : mallow.Documented)
    (h : mallow.load (httpSubscriptionConfigSchema mallow) body = .ok d) :
    ∃ method, d.lookup "method" = some (.str method) := by
  obtain ⟨v, -, -, hv, -⟩ := hm.lookup_required h (httpField_mem 1) rfl
  obtain ⟨method, rfl⟩ := exists_str_of_httpField hm h (httpField_mem 1) hv
  exact ⟨method, hv⟩

theorem exists_of_configField (hm : mallow.Documented) {data : List (String × Json)}
    {raw v : Json} (h : configField mallow data raw = .ok v) : ∃ fields, v = .obj fields := by
  unfold configField at h
  split at h
  · cases h
  · split at h
    · cases h
    · cases h
    · unfold Except.map at h
      split at h
      · cases h
      · cases h
        exact ⟨_, rfl⟩
    · exact hm.stringDict h

theorem notMem_names {key : String}
    (h : key ∉ ["name", "service", "events", "config", "metadata_"]) :
    key ∉ (userSubscriptionSchema mallow).loadFields.map (·.name) := h

/-- The values of the fields of the user schema. -/
structure UserBody (d : LoadedDict) (name service : String) (events : List String)
    (config metadata : List (String × Json)) : Prop where
  name : d.lookup "name" = some (.str name)
  service : d.lookup "service" = some (.str service)
  events : d.lookup "events" = some (.arr (events.map .str))
  config : d.lookup "config" = some (.obj config)
  metadata : (d.lookup "metadata_").getD (.obj []) = .obj metadata

theorem userBody_of_load (hm : mallow.Documented)
    (h : mallow.load (userSubscriptionSchema mallow) body = .ok d) :
    ∃ name service events config metadata, UserBody d name service events config metadata := by
  have hfields : ∀ i : Fin 5, (userSubscriptionSchema mallow).loadFields.get i ∈
      (userSubscriptionSchema mallow).loadFields :=
    fun i => List.get_mem (userSubscriptionSchema mallow).loadFields i
  obtain ⟨_, _, _, hname, hok⟩ := hm.lookup_required h (hfields 0) rfl
  obtain ⟨name, rfl⟩ := hm.string hok
  obtain ⟨_, _, _, hservice, hok⟩ := hm.lookup_required h (hfields 1) rfl
  obtain ⟨service, rfl⟩ := hm.string hok
  obtain ⟨_, _, _, hevents, hok⟩ := hm.lookup_required h (hfields 2) rfl
  obtain ⟨items, rfl, hitems⟩ := hm.list hok
  have hstrings : ∀ item ∈ items, ∃ s, item = .str s := by
    intro item hitem
    obtain ⟨raw, hraw⟩ := hitems item hitem
    exact hm.string hraw
  obtain ⟨events, rfl⟩ := Json.exists_map_str hstrings
  obtain ⟨_, _, _, hconfig, hok⟩ := hm.lookup_required h (hfields 3) rfl
  obtain ⟨config, rfl⟩ := exists_of_configField hm hok
  have hmetadata : ∃ metadata, (d.lookup "metadata_").getD (.obj []) = .obj metadata := by
    cases hv : d.lookup "metadata_" with
    | none => exact ⟨[], rfl⟩
    | some v =>
      obtain ⟨_, _, -, -, hok⟩ := hm.deserializes h _ (hfields 4) v hv
      exact hm.dict hok
  obtain ⟨metadata, hmetadata⟩ := hmetadata
  exact ⟨name, service, events, config, metadata, hname, hservice, hevents, hconfig, hmetadata⟩

theorem UserBody.congr {d' : LoadedDict} {name service : String} {events : List String}
    {config metadata : List (String × Json)} (hb : UserBody d name service events config metadata)
    (h : ∀ field ∈ ["name", "service", "events", "config", "metadata_"],
      d'.lookup field = d.lookup field) :
    UserBody d' name service events config metadata := by
  refine ⟨?_, ?_, ?_, ?_, ?_⟩
  · rw [h "name" (by decide), hb.name]
  · rw [h "service" (by decide), hb.service]
  · rw [h "events" (by decide), hb.events]
  · rw [h "config" (by decide), hb.config]
  · rw [h "metadata_" (by decide), hb.metadata]

theorem UserBody.insert {name service : String} {events : List String}
    {config metadata : List (String × Json)} (hb : UserBody d name service events config metadata)
    {key : String} (hk : key ∉ ["name", "service", "events", "config", "metadata_"]) (v : Json) :
    UserBody (d.insert key v) name service events config metadata := by
  refine hb.congr fun field hfield => Finmap.lookup_insert_of_ne d ?_
  rintro rfl
  exact hk hfield

theorem UserBody.ofDict_eq {name service : String} {events : List String}
    {config metadata : List (String × Json)} (hb : UserBody d name service events config metadata)
    (text : Json → Option String) {wazo eventsUser ownerUser : Option (Option String)}
    {tenant : Option String}
    (hwazo : (d.lookup "events_wazo_uuid").mapM Json.asNullable = some wazo)
    (heventsUser : (d.lookup "events_user_uuid").mapM Json.asNullable = some eventsUser)
    (hownerUser : (d.lookup "owner_user_uuid").mapM Json.asNullable = some ownerUser)
    (htenant : (d.lookup "owner_tenant_uuid").mapM Json.asString = some tenant) :
    SchemaKwargs.ofDict text d = some ⟨name, service, config.map fun p => (p.1, text p.2), events,
      metadata.map fun p => (p.1, text p.2), wazo, eventsUser, ownerUser, tenant⟩ := by
  unfold SchemaKwargs.ofDict
  rw [hb.name, hb.service, hb.events, hb.config, hb.metadata, hwazo, heventsUser, hownerUser,
    htenant]
  simp [Json.asString, Json.asFields, Json.asStrings_map]

theorem UserBody.ofDict {name service : String} {events : List String}
    {config metadata : List (String × Json)} (hb : UserBody d name service events config metadata)
    (text : Json → Option String) {wazo eventsUser ownerUser : Option (Option String)}
    {tenant : Option String}
    (hwazo : (d.lookup "events_wazo_uuid").mapM Json.asNullable = some wazo)
    (heventsUser : (d.lookup "events_user_uuid").mapM Json.asNullable = some eventsUser)
    (hownerUser : (d.lookup "owner_user_uuid").mapM Json.asNullable = some ownerUser)
    (htenant : (d.lookup "owner_tenant_uuid").mapM Json.asString = some tenant) :
    ∃ k, SchemaKwargs.ofDict text d = some k ∧ k.eventsWazoUuid = wazo ∧
      k.eventsUserUuid = eventsUser ∧ k.ownerUserUuid = ownerUser ∧
      k.ownerTenantUuid = tenant :=
  ⟨_, hb.ofDict_eq text hwazo heventsUser hownerUser htenant, rfl, rfl, rfl, rfl⟩

end Load

def Field.value (f : Field) (data : List (String × Json)) : Option Json :=
  (data.lookup f.dataKey).bind fun raw => (f.deserialize data raw).toOption

def Schema.entries (schema : Schema) (data : List (String × Json)) : List (Σ _ : String, Json) :=
  schema.loadFields.filterMap fun f => (f.value data).map fun v => ⟨f.name, v⟩

/-- No value is rejected by its field, no required field is missing and no key is unknown. -/
def Schema.accepts (schema : Schema) (data : List (String × Json)) : Bool :=
  (schema.loadFields.all fun f =>
    (f.value data).isSome || !f.required && (data.lookup f.dataKey).isNone) &&
  (schema.unknown = .exclude || data.all fun p => p.1 ∈ schema.loadFields.map (·.dataKey))

/-- Libraries that report no messages. -/
def Mallow.plain : Mallow where
  load schema body := match body with
    | .obj data =>
      if schema.accepts data then .ok (schema.entries data).toFinmap
      else .error (.validationError .null)
    | _ => .error (.validationError .null)
  uuid raw := match raw with
    | .str s => .ok (.str s)
    | _ => .error (.validationError .null)
  string max raw := match raw with
    | .str s => if s.length ≤ max then .ok (.str s) else .error (.validationError .null)
    | _ => .error (.validationError .null)
  list field raw := match raw with
    | .arr items =>
      if items.all fun item => (field item).toOption.isSome then
        .ok (.arr (items.filterMap fun item => (field item).toOption))
      else .error (.validationError .null)
    | _ => .error (.validationError .null)
  dict raw := match raw with
    | .obj fields => .ok (.obj fields)
    | _ => .error (.validationError .null)
  stringDict raw := match raw with
    | .obj fields =>
      if fields.all fun p => p.2.asString.isSome then .ok (.obj fields)
      else .error (.validationError .null)
    | _ => .error (.validationError .null)
  oneOf choices s := if s ∈ choices then .ok () else .error (.validationError .null)
  nullError := .validationError .null
  boolean s :=
    if s ∈ ["true", "True", "1"] then .ok true
    else if s ∈ ["false", "False", "0"] then .ok false
    else .error (.validationError .null)

section Plain
variable {schema : Schema} {data : List (String × Json)}

theorem eq_ok_of_toOption {ε α : Type} {x : Except ε α} {a : α}
    (h : x.toOption = some a) : x = .ok a := by
  cases x with
  | error e => cases h
  | ok b =>
    cases h
    rfl

theorem Mallow.plain_load_ok {body : Json} {d : LoadedDict}
    (h : Mallow.plain.load schema body = .ok d) :
    ∃ data, body = .obj data ∧ schema.accepts data ∧ d = (schema.entries data).toFinmap := by
  cases body with
  | obj data =>
    simp only [Mallow.plain] at h
    split_ifs at h with haccepts
    cases h
    exact ⟨data, rfl, haccepts, rfl⟩
  | _ => cases h

theorem Schema.mem_entries {name : String} {v : Json} :
    (⟨name, v⟩ : Σ _ : String, Json) ∈ schema.entries data ↔
      ∃ f ∈ schema.loadFields, f.name = name ∧ f.value data = some v := by
  simp only [entries, List.mem_filterMap, Option.map_eq_some_iff]
  constructor
  · rintro ⟨f, hf, v', hv', heq⟩
    cases heq
    exact ⟨f, hf, rfl, hv'⟩
  · rintro ⟨f, hf, rfl, hv⟩
    exact ⟨f, hf, v, hv, rfl⟩

theorem Schema.mem_of_lookup_entries {name : String} {v : Json}
    (h : (schema.entries data).toFinmap.lookup name = some v) :
    ∃ f ∈ schema.loadFields, f.name = name ∧ f.value data = some v := by
  rw [Finmap.dlookup_list_toFinmap] at h
  exact mem_entries.mp (List.of_mem_dlookup h)

theorem Schema.loadFields_inj {f g : Field} (hf : f ∈ schema.loadFields)
    (hg : g ∈ schema.loadFields) (h : f.name = g.name) : f = g :=
  List.inj_on_of_nodup_map schema.name_nodup (List.mem_filter.mp hf).1 (List.mem_filter.mp hg).1 h

theorem Mallow.documented_plain : Mallow.plain.Documented where
  excludes := by
    intro schema body d _ h key hkey
    obtain ⟨data, -, -, rfl⟩ := plain_load_ok h
    obtain ⟨v, hv⟩ := Finmap.mem_iff.mp hkey
    obtain ⟨f, hf, hname, -⟩ := Schema.mem_of_lookup_entries hv
    exact ⟨f, hf, hname⟩
  requires := by
    intro schema body d h f hf hr
    obtain ⟨data, -, haccepts, rfl⟩ := plain_load_ok h
    have hall := List.all_eq_true.mp (Bool.and_eq_true_iff.mp haccepts).1 f hf
    have hsome : (f.value data).isSome := by simpa [hr] using hall
    obtain ⟨v, hv⟩ := Option.isSome_iff_exists.mp hsome
    rw [Finmap.mem_list_toFinmap]
    exact ⟨v, Schema.mem_entries.mpr ⟨f, hf, rfl, hv⟩⟩
  deserializes := by
    intro schema body d h f hf v hv
    obtain ⟨data, rfl, -, rfl⟩ := plain_load_ok h
    obtain ⟨g, hg, hname, hvalue⟩ := Schema.mem_of_lookup_entries hv
    obtain rfl := Schema.loadFields_inj hg hf hname
    obtain ⟨raw, hraw, hok⟩ := Option.bind_eq_some_iff.mp hvalue
    exact ⟨data, raw, rfl, hraw, eq_ok_of_toOption hok⟩
  string := by
    intro max raw v h
    cases raw with
    | str s =>
      simp only [Mallow.plain] at h
      split_ifs at h
      cases h
      exact ⟨s, rfl⟩
    | _ => cases h
  list := by
    intro field raw v h
    cases raw with
    | arr items =>
      simp only [Mallow.plain] at h
      split_ifs at h
      cases h
      refine ⟨_, rfl, ?_⟩
      intro item hitem
      obtain ⟨raw, -, hraw⟩ := List.mem_filterMap.mp hitem
      exact ⟨raw, eq_ok_of_toOption hraw⟩
    | _ => cases h
  dict := by
    intro raw v h
    cases raw with
    | obj fields =>
      cases h
      exact ⟨fields, rfl⟩
    | _ => cases h
  stringDict := by
    intro raw v h
    cases raw with
    | obj fields =>
      simp only [Mallow.plain] at h
      split_ifs at h
      cases h
      exact ⟨fields, rfl⟩
    | _ => cases h

end Plain

end WazoWebhookd

import WazoWebhookd.Library.Failing
import WazoWebhookd.Subscription.AdminSchema

/-! The bodies the two schemas accept, and the keyword arguments they become. -/
namespace WazoWebhookd

/-- What marshmallow and the validators document of their results: a field gives back what it
accepts, and a dictionary is accepted in every order. -/
structure Mallow.Specified (mallow : Mallow) : Prop where
  load : ∀ {schema body d}, mallow.load schema body = .ok d ↔
    ∃ data, body = .obj data ∧ schema.accepts data ∧ d = (schema.entries data).toFinmap
  string : ∀ {max raw v}, mallow.string max raw = .ok v ↔
    ∃ s : String, s.length ≤ max ∧ raw = .str s ∧ v = .str s
  list : ∀ {field raw v}, mallow.list field raw = .ok v ↔
    ∃ items values, List.Forall₂ (fun item value => field item = .ok value) items values ∧
      raw = .arr items ∧ v = .arr values
  dict : ∀ {raw v}, mallow.dict raw = .ok v ↔ ∃ fields, raw = .obj fields ∧ v = .obj fields
  stringDict : ∀ {raw v}, mallow.stringDict raw = .ok v →
    ∃ fields : List (String × String), raw = .obj (fields.map fun p => (p.1, .str p.2)) ∧ v = raw
  stringDict_perm : ∀ {fields fields' : List (String × Json)}, fields.Perm fields' →
    mallow.stringDict (.obj fields) = .ok (.obj fields) →
      mallow.stringDict (.obj fields') = .ok (.obj fields')
  oneOf : ∀ {choices s}, mallow.oneOf choices s = .ok () ↔ s ∈ choices

structure AdminMallow.Specified (mallow : AdminMallow) : Prop extends
    mallow.toMallow.Specified where
  stringOf : ∀ {length raw v}, mallow.stringOf length raw = .ok v ↔
    ∃ s : String, s.length = length ∧ raw = .str s ∧ v = .str s

section Load
variable {mallow : Mallow} {schema : Schema} {data : List (String × Json)} {body : Json}
  {d : LoadedDict} {f : Field}

theorem Field.value_eq_some {v : Json} : f.value data = some v ↔
    ∃ raw, data.lookup f.dataKey = some raw ∧ f.deserialize data raw = .ok v := by
  unfold Field.value
  rw [Option.bind_eq_some_iff]
  refine exists_congr fun raw => and_congr_right fun _ => ?_
  refine ⟨eq_ok_of_toOption, fun h => ?_⟩
  rw [h]
  rfl

theorem Schema.lookup_entries (hf : f ∈ schema.loadFields) :
    (schema.entries data).toFinmap.lookup f.name = f.value data := by
  have hsound : ∀ v, (schema.entries data).toFinmap.lookup f.name = some v →
      f.value data = some v := by
    intro v hv
    obtain ⟨g, hg, hname, hvalue⟩ := mem_of_lookup_entries hv
    obtain rfl := loadFields_inj hg hf hname
    exact hvalue
  refine Option.ext fun v => ⟨hsound v, fun hv => ?_⟩
  have hmem : f.name ∈ (schema.entries data).toFinmap :=
    (Finmap.mem_list_toFinmap ..).mpr ⟨v, mem_entries.mpr ⟨f, hf, rfl, hv⟩⟩
  obtain ⟨v', hv'⟩ := Finmap.mem_iff.mp hmem
  obtain rfl := Option.some.inj (hv.symm.trans (hsound v' hv'))
  exact hv'

theorem Schema.accepts_iff : schema.accepts data ↔
    (∀ f ∈ schema.loadFields, (∃ v, f.value data = some v) ∨
      f.required = false ∧ data.lookup f.dataKey = none) ∧
    (schema.unknown = .exclude ∨ ∀ p ∈ data, p.1 ∈ schema.loadFields.map (·.dataKey)) := by
  simp only [accepts, Bool.and_eq_true, List.all_eq_true, Bool.or_eq_true,
    Option.isSome_iff_exists, Bool.not_eq_true', Option.isNone_iff_eq_none, decide_eq_true_eq]

/-- What a load returns, field by field. -/
theorem Mallow.Specified.loaded (hm : mallow.Specified) (h : mallow.load schema body = .ok d) :
    ∃ data, body = .obj data ∧ schema.accepts data ∧
      ∀ f ∈ schema.loadFields, d.lookup f.name = f.value data := by
  obtain ⟨data, rfl, haccepts, rfl⟩ := hm.load.mp h
  exact ⟨data, rfl, haccepts, fun f hf => Schema.lookup_entries hf⟩

theorem Mallow.Specified.lookup_of_notMem (hm : mallow.Specified)
    (h : mallow.load schema body = .ok d) {key : String}
    (hkey : key ∉ schema.loadFields.map (·.name)) : d.lookup key = none := by
  obtain ⟨data, -, -, rfl⟩ := hm.load.mp h
  cases hv : (schema.entries data).toFinmap.lookup key with
  | none => rfl
  | some v =>
    obtain ⟨f, hf, rfl, -⟩ := Schema.mem_of_lookup_entries hv
    exact absurd (List.mem_map_of_mem hf) hkey

theorem Schema.accepts_required (h : schema.accepts data) (hf : f ∈ schema.loadFields)
    (hr : f.required) : ∃ raw v, data.lookup f.dataKey = some raw ∧
      f.deserialize data raw = .ok v ∧ f.value data = some v := by
  rcases (accepts_iff.mp h).1 f hf with ⟨v, hv⟩ | ⟨hnot, -⟩
  · obtain ⟨raw, hraw, hok⟩ := Field.value_eq_some.mp hv
    exact ⟨raw, v, hraw, hok, hv⟩
  · rw [hr] at hnot
    cases hnot

end Load

def stringObject (fields : List (String × String)) : Json :=
  .obj (fields.map fun p => (p.1, .str p.2))

section HttpConfig
variable {mallow : Mallow} {config : Json} {d d' : LoadedDict}

/-- The http config a load returns. -/
structure HttpLoaded (mallow : Mallow) (d : LoadedDict) : Prop where
  fields : ∀ f ∈ (httpSubscriptionConfigSchema mallow).loadFields,
    (∃ s, d.lookup f.name = some (.str s) ∧ f.deserialize [] (.str s) = .ok (.str s)) ∨
      f.required = false ∧ d.lookup f.name = none
  method : ∃ method ∈ validMethods, d.lookup "method" = some (.str method)
  verify : ∀ v, d.lookup "verify_certificate" = some v → validateVerify v = .ok ()

theorem deserialize_httpField {f : Field}
    (hf : f ∈ (httpSubscriptionConfigSchema mallow).loadFields) (data data' : List (String × Json))
    (raw : Json) : f.deserialize data raw = f.deserialize data' raw := by
  obtain ⟨max, hmax⟩ := exists_string_of_httpField hf
  rw [hmax]

theorem dataKey_httpField {f : Field}
    (hf : f ∈ (httpSubscriptionConfigSchema mallow).loadFields) : f.dataKey = f.name := by
  change f ∈ [_, _, _, _, _] at hf
  simp only [List.mem_cons, List.not_mem_nil, or_false] at hf
  rcases hf with rfl | rfl | rfl | rfl | rfl <;> rfl

theorem toLower_of_valid {method : String} (h : method ∈ validMethods) :
    method.toLower = method := by
  simp only [validMethods, List.mem_cons, List.not_mem_nil, or_false] at h
  rcases h with rfl | rfl | rfl | rfl | rfl <;>
  · apply String.ext
    change (String.map Char.toLower _).toList = _
    simp

theorem length_of_valid {method : String} (h : method ∈ validMethods) : method.length ≤ 64 := by
  simp only [validMethods, List.mem_cons, List.not_mem_nil, or_false] at h
  rcases h with rfl | rfl | rfl | rfl | rfl <;> decide

theorem forM_eq_ok {check : Json → Except LoadError Unit} {x : Option Json}
    (h : x.forM check = .ok ()) {v : Json} (hv : x = some v) : check v = .ok () := by
  rw [hv] at h
  exact h

theorem httpLoaded_of_load (hm : mallow.Specified) (h : loadHttpConfig mallow config = .ok d) :
    HttpLoaded mallow d := by
  unfold loadHttpConfig at h
  obtain ⟨raw, -, h⟩ := Except.exists_of_bind_eq_ok h
  obtain ⟨data, hload, h⟩ := Except.exists_of_bind_eq_ok h
  obtain ⟨_, hmethod, h⟩ := Except.exists_of_bind_eq_ok h
  obtain ⟨_, hverify, hlower⟩ := Except.exists_of_bind_eq_ok h
  obtain ⟨fields, -, haccepts, hlookup⟩ := hm.loaded hload
  -- The string of each field, in the dictionary before the method is lowered.
  have hstring : ∀ f ∈ (httpSubscriptionConfigSchema mallow).loadFields,
      (∃ s, data.lookup f.name = some (.str s) ∧ f.deserialize [] (.str s) = .ok (.str s)) ∨
        f.required = false ∧ data.lookup f.name = none := by
    intro f hf
    rw [hlookup f hf]
    rcases (Schema.accepts_iff.mp haccepts).1 f hf with ⟨v, hv⟩ | ⟨hr, hnone⟩
    · obtain ⟨raw, hraw, hok⟩ := Field.value_eq_some.mp hv
      obtain ⟨max, hmax⟩ := exists_string_of_httpField hf
      rw [hmax] at hok ⊢
      obtain ⟨s, hs, -, rfl⟩ := hm.string.mp hok
      exact .inl ⟨s, hv, hm.string.mpr ⟨s, hs, rfl, rfl⟩⟩
    · refine .inr ⟨hr, ?_⟩
      rw [Field.value, hnone]
      rfl
  rcases hstring _ (httpField_mem 1) with ⟨method, hm', -⟩ | ⟨hr, -⟩
  · have hvalid : method.toLower ∈ validMethods := hm.oneOf.mp (forM_eq_ok hmethod hm')
    have hd : data.insert "method" (.str method.toLower) = d := by
      change data.lookup "method" = _ at hm'
      rw [lowercaseMethod, hm'] at hlower
      exact Except.ok.inj hlower
    subst hd
    refine ⟨?_, ⟨_, hvalid, Finmap.lookup_insert ..⟩, ?_⟩
    · intro f hf
      by_cases hname : f.name = "method"
      · obtain rfl := Schema.loadFields_inj hf (httpField_mem 1) hname
        refine .inl ⟨_, Finmap.lookup_insert .., ?_⟩
        exact hm.string.mpr ⟨_, length_of_valid hvalid, rfl, rfl⟩
      · rw [Finmap.lookup_insert_of_ne _ hname]
        exact hstring f hf
    · intro v hv
      rw [Finmap.lookup_insert_of_ne _ (by decide)] at hv
      exact forM_eq_ok hverify hv
  · cases hr

theorem removeNoneValues_strings (schema : Schema) (fields : List (String × String)) :
    removeNoneValues schema (stringObject fields) = .ok (stringObject fields) := by
  have hkept : ((fields.map fun p => (p.1, Json.str p.2)).filter fun p => !(p.2.isNull &&
      p.1 ∈ (schema.fields.filter fun f => !f.required).map (·.name))) =
        fields.map fun p => (p.1, .str p.2) := by
    refine List.filter_eq_self.mpr fun p hp => ?_
    obtain ⟨q, -, rfl⟩ := List.mem_map.mp hp
    rfl
  exact congrArg (fun l => Except.ok (Json.obj l)) hkept

/-- The strings of a loaded config are accepted, and stay what they are. -/
theorem load_strings (hm : mallow.Specified) (hd : HttpLoaded mallow d)
    {fields : List (String × String)}
    (hkeys : ∀ p ∈ fields, p.1 ∈ (httpSubscriptionConfigSchema mallow).loadFields.map (·.name))
    (hlookup : ∀ f ∈ (httpSubscriptionConfigSchema mallow).loadFields,
      (fields.lookup f.name).map .str = d.lookup f.name) :
    ∃ loaded, mallow.load (httpSubscriptionConfigSchema mallow) (stringObject fields) =
        .ok loaded ∧
      ∀ f ∈ (httpSubscriptionConfigSchema mallow).loadFields,
        loaded.lookup f.name = d.lookup f.name := by
  set schema := httpSubscriptionConfigSchema mallow with hschema
  set data : List (String × Json) := fields.map fun p => (p.1, .str p.2) with hdata
  have hdataLookup : ∀ f ∈ schema.loadFields, data.lookup f.dataKey = d.lookup f.name := by
    intro f hf
    rw [dataKey_httpField hf, hdata, KeyedList.lookup_map, hlookup f hf]
  have hvalue : ∀ f ∈ schema.loadFields, f.value data = d.lookup f.name := by
    intro f hf
    rw [Field.value, hdataLookup f hf]
    rcases hd.fields f hf with ⟨s, hs, hok⟩ | ⟨-, hnone⟩
    · rw [hs, Option.bind_some, deserialize_httpField hf data [], hok]
      rfl
    · rw [hnone]
      rfl
  have haccepts : schema.accepts data := by
    refine Schema.accepts_iff.mpr ⟨fun f hf => ?_, .inr fun p hp => ?_⟩
    · rw [hvalue f hf, hdataLookup f hf]
      exact (hd.fields f hf).imp (fun ⟨s, hs, _⟩ => ⟨_, hs⟩) id
    · obtain ⟨q, hq, rfl⟩ := List.mem_map.mp hp
      obtain ⟨f, hf, hname⟩ := List.mem_map.mp (hkeys q hq)
      exact List.mem_map.mpr ⟨f, hf, (dataKey_httpField hf).trans hname⟩
  refine ⟨(schema.entries data).toFinmap, hm.load.mpr ⟨data, rfl, haccepts, rfl⟩, ?_⟩
  intro f hf
  rw [Schema.lookup_entries hf, hvalue f hf]

/-- Loading the strings of a loaded config changes none of them. -/
theorem loadHttpConfig_strings (hm : mallow.Specified) (hd : HttpLoaded mallow d)
    {fields : List (String × String)}
    (hkeys : ∀ p ∈ fields, p.1 ∈ (httpSubscriptionConfigSchema mallow).loadFields.map (·.name))
    (hlookup : ∀ f ∈ (httpSubscriptionConfigSchema mallow).loadFields,
      (fields.lookup f.name).map .str = d.lookup f.name) :
    ∃ d', loadHttpConfig mallow (stringObject fields) = .ok d' ∧
      ∀ f ∈ (httpSubscriptionConfigSchema mallow).loadFields,
        d'.lookup f.name = d.lookup f.name := by
  obtain ⟨loaded, hload, hloaded⟩ := load_strings hm hd hkeys hlookup
  obtain ⟨method, hvalid, hmethod⟩ := hd.method
  have hmethod' : loaded.lookup "method" = some (.str method) :=
    (hloaded _ (httpField_mem 1)).trans hmethod
  have hverify : (loaded.lookup "verify_certificate").forM validateVerify = .ok () := by
    have hsame : loaded.lookup "verify_certificate" = d.lookup "verify_certificate" :=
      hloaded _ (httpField_mem 3)
    rw [hsame]
    cases hv : d.lookup "verify_certificate" with
    | none => rfl
    | some v => exact hd.verify v hv
  refine ⟨loaded.insert "method" (.str method), ?_, ?_⟩
  · have hoption : (loaded.lookup "method").forM (validateMethod mallow) = .ok () := by
      rw [hmethod']
      change mallow.oneOf validMethods method.toLower = .ok ()
      rw [toLower_of_valid hvalid]
      exact hm.oneOf.mpr hvalid
    have hlower : lowercaseMethod loaded = .ok (loaded.insert "method" (.str method)) := by
      rw [lowercaseMethod, hmethod']
      dsimp only
      rw [toLower_of_valid hvalid]
    refine (Except.bind_of_eq_ok (removeNoneValues_strings _ fields) _).trans ?_
    refine (Except.bind_of_eq_ok hload _).trans ((Except.bind_of_eq_ok hoption _).trans ?_)
    exact (Except.bind_of_eq_ok hverify _).trans hlower
  · intro f hf
    by_cases hname : f.name = "method"
    · rw [hname, Finmap.lookup_insert, hmethod]
    · rw [Finmap.lookup_insert_of_ne _ hname, hloaded f hf]

/-- The loaded config as a list of strings. -/
def httpStrings (mallow : Mallow) (d : LoadedDict) : List (String × String) :=
  (httpSubscriptionConfigSchema mallow).loadFields.filterMap fun f =>
    ((d.lookup f.name).bind Json.asString).map fun s => (f.name, s)

theorem httpStrings_keys (mallow : Mallow) (d : LoadedDict) :
    ((httpStrings mallow d).map (·.1)).Sublist
      ((httpSubscriptionConfigSchema mallow).loadFields.map (·.name)) := by
  unfold httpStrings
  generalize (httpSubscriptionConfigSchema mallow).loadFields = fields
  induction fields with
  | nil => exact List.Sublist.slnil
  | cons f fields ih =>
    rw [List.filterMap_cons]
    cases (d.lookup f.name).bind Json.asString with
    | none => exact ih.cons _
    | some s => exact ih.cons_cons _

theorem httpStrings_nodup (mallow : Mallow) (d : LoadedDict) :
    ((httpStrings mallow d).map (·.1)).Nodup := by
  refine List.Nodup.sublist (httpStrings_keys mallow d) ?_
  exact (httpSubscriptionConfigSchema mallow).name_nodup.sublist (List.filter_sublist.map _)

theorem lookup_httpStrings (hd : HttpLoaded mallow d) {f : Field}
    (hf : f ∈ (httpSubscriptionConfigSchema mallow).loadFields) :
    ((httpStrings mallow d).lookup f.name).map .str = d.lookup f.name := by
  have hmem : ∀ s, (httpStrings mallow d).lookup f.name = some s ↔
      (d.lookup f.name).bind Json.asString = some s := by
    intro s
    rw [KeyedList.lookup_eq_some_iff_mem (httpStrings_nodup mallow d), httpStrings,
      List.mem_filterMap]
    constructor
    · rintro ⟨g, hg, hs⟩
      obtain ⟨s', hs', heq⟩ := Option.map_eq_some_iff.mp hs
      obtain ⟨hname, rfl⟩ := Prod.mk.inj heq
      exact hname ▸ hs'
    · intro hs
      exact ⟨f, hf, by rw [hs]; rfl⟩
  have hlookup : (httpStrings mallow d).lookup f.name = (d.lookup f.name).bind Json.asString :=
    Option.ext hmem
  rw [hlookup]
  rcases hd.fields f hf with ⟨s, hs, -⟩ | ⟨-, hnone⟩
  · rw [hs]
    rfl
  · rw [hnone]
    rfl

theorem toJson_eq_stringObject (hd : HttpLoaded mallow d) :
    (httpSubscriptionConfigSchema mallow).toJson d = stringObject (httpStrings mallow d) := by
  unfold Schema.toJson stringObject httpStrings
  rw [List.map_filterMap]
  refine congrArg Json.obj (List.filterMap_congr fun f hf => ?_)
  rcases hd.fields f hf with ⟨s, hs, -⟩ | ⟨-, hnone⟩
  · rw [hs]
    rfl
  · rw [hnone]
    rfl

theorem toJson_congr (h : ∀ f ∈ (httpSubscriptionConfigSchema mallow).loadFields,
    d'.lookup f.name = d.lookup f.name) :
    (httpSubscriptionConfigSchema mallow).toJson d' =
      (httpSubscriptionConfigSchema mallow).toJson d := by
  unfold Schema.toJson
  refine congrArg Json.obj (List.filterMap_congr fun f hf => ?_)
  rw [h f hf]

end HttpConfig

/-- The field of a service takes the config back, in whatever order, and changes nothing. -/
def TakesBack (mallow : Mallow) (service : String) (config : List (String × String)) : Prop :=
  ∀ data : List (String × Json), data.lookup "service" = some (.str service) →
    ∀ config' : List (String × String), config'.Perm config →
      ∃ config'', configField mallow data (stringObject config') = .ok (stringObject config'') ∧
        config''.Perm config

section ConfigField
variable {mallow : Mallow} {data : List (String × Json)} {raw v : Json} {service : String}

theorem configField_of_http (hservice : data.lookup "service" = some (.str "http"))
    (fields : List (String × String)) : configField mallow data (stringObject fields) =
      (loadHttpConfig mallow (stringObject fields)).map
        (httpSubscriptionConfigSchema mallow).toJson := by
  simp only [configField, stringObject, hservice]

theorem configField_of_ne_http (hservice : data.lookup "service" = some (.str service))
    (hne : service ≠ "http") (fields : List (String × String)) :
    configField mallow data (stringObject fields) = mallow.stringDict (stringObject fields) := by
  unfold configField stringObject
  rw [hservice]
  split
  · cases ‹_ = Json.null›
  · split
    · cases ‹_›
    · cases ‹_›
    · cases ‹_›
      exact absurd rfl hne
    · rfl

theorem takesBack_http (hm : mallow.Specified) {d : LoadedDict} (hd : HttpLoaded mallow d) :
    TakesBack mallow "http" (httpStrings mallow d) := by
  intro data hservice config hperm
  have hnodup := httpStrings_nodup mallow d
  have hnodup' : (config.map (·.1)).Nodup := (hperm.map _).nodup_iff.mpr hnodup
  have hlookup : ∀ f ∈ (httpSubscriptionConfigSchema mallow).loadFields,
      (config.lookup f.name).map .str = d.lookup f.name := by
    intro f hf
    have hsame : config.lookup f.name = (httpStrings mallow d).lookup f.name := by
      refine Option.ext fun s => ?_
      rw [KeyedList.lookup_eq_some_iff_mem hnodup', KeyedList.lookup_eq_some_iff_mem hnodup,
        hperm.mem_iff]
    rw [hsame, lookup_httpStrings hd hf]
  have hkeys : ∀ p ∈ config, p.1 ∈ (httpSubscriptionConfigSchema mallow).loadFields.map
      (·.name) := fun p hp =>
    (httpStrings_keys mallow d).subset (List.mem_map_of_mem (hperm.mem_iff.mp hp))
  obtain ⟨d', hok, hsame⟩ := loadHttpConfig_strings hm hd hkeys hlookup
  refine ⟨httpStrings mallow d, ?_, List.Perm.refl _⟩
  rw [configField_of_http hservice, hok, ← toJson_eq_stringObject hd, ← toJson_congr hsame]
  rfl

theorem takesBack_other (hm : mallow.Specified) (hne : service ≠ "http")
    {config : List (String × String)}
    (h : mallow.stringDict (stringObject config) = .ok (stringObject config)) :
    TakesBack mallow service config := by
  intro data hservice config' hperm
  refine ⟨config', ?_, hperm⟩
  rw [configField_of_ne_http hservice hne]
  exact hm.stringDict_perm (hperm.symm.map _) h

/-- What the field of a service returns is an object of strings, which the field takes back. -/
theorem exists_config_of_configField (hm : mallow.Specified) (hraw : raw.Distinct)
    (hservice : data.lookup "service" = some (.str service))
    (h : configField mallow data raw = .ok v) :
    ∃ config, v = stringObject config ∧ (config.map (·.1)).Nodup ∧
      TakesBack mallow service config := by
  unfold configField at h
  split at h
  · cases h
  · rw [hservice] at h
    split at h
    · cases ‹_›
    · cases ‹_›
    · cases ‹some _ = some _›
      obtain ⟨d, hload, rfl⟩ := Except.exists_of_map_eq_ok h
      have hd := httpLoaded_of_load hm hload
      exact ⟨_, toJson_eq_stringObject hd, httpStrings_nodup mallow d, takesBack_http hm hd⟩
    · rename_i hhttp
      obtain ⟨config, rfl, rfl⟩ := hm.stringDict h
      have hne : service ≠ "http" := fun hsame => hhttp (hsame ▸ rfl)
      refine ⟨config, rfl, ?_, takesBack_other hm hne h⟩
      cases hraw with
      | obj hkeys =>
        rw [List.map_map] at hkeys
        exact hkeys

end ConfigField

/-- The values the fields of both schemas accept. -/
structure Accepted (mallow : Mallow) (name service : String) (events : List String)
    (config : List (String × String)) (metadata : List (String × Json)) : Prop where
  name_length : name.length ≤ 128
  service_length : service.length ≤ 128
  event_length : ∀ event ∈ events, event.length ≤ 128
  config_nodup : (config.map (·.1)).Nodup
  takesBack : TakesBack mallow service config
  metadata_nodup : (metadata.map (·.1)).Nodup

section Bodies
variable {mallow : Mallow} {schema : Schema} {body : Json} {d : LoadedDict}

theorem exists_strings_of_list (hm : mallow.Specified) {max : ℕ} {raw v : Json}
    (h : mallow.list (mallow.string max) raw = .ok v) :
    ∃ strings : List String, v = .arr (strings.map .str) ∧ ∀ s ∈ strings, s.length ≤ max := by
  obtain ⟨items, values, hall, -, rfl⟩ := hm.list.mp h
  clear h
  induction hall with
  | nil => exact ⟨[], rfl, by simp⟩
  | cons hok _ ih =>
    obtain ⟨s, hs, -, rfl⟩ := hm.string.mp hok
    obtain ⟨strings, hv, hstrings⟩ := ih
    refine ⟨s :: strings, ?_, List.forall_mem_cons.mpr ⟨hs, hstrings⟩⟩
    rw [List.map_cons, Json.arr.inj hv]

/-- What both schemas make of a body. -/
theorem accepted_of_load (hm : mallow.Specified) (hbody : body.Distinct)
    (hsub : ∀ f ∈ (userSubscriptionSchema mallow).loadFields, f ∈ schema.loadFields)
    (h : mallow.load schema body = .ok d) :
    ∃ name service events config metadata,
      UserBody d name service events (config.map fun p => (p.1, .str p.2)) metadata ∧
        Accepted mallow name service events config metadata := by
  obtain ⟨data, rfl, haccepts, hlookup⟩ := hm.loaded h
  have hfield : ∀ i : Fin 5, (userSubscriptionSchema mallow).loadFields.get i ∈
      schema.loadFields := fun i =>
    hsub _ (List.get_mem (userSubscriptionSchema mallow).loadFields i)
  obtain ⟨_, _, -, hok, hname⟩ := Schema.accepts_required haccepts (hfield 0) rfl
  obtain ⟨name, hname_length, -, rfl⟩ := hm.string.mp hok
  obtain ⟨_, _, hraw, hok, hservice⟩ := Schema.accepts_required haccepts (hfield 1) rfl
  obtain ⟨service, hservice_length, rfl, rfl⟩ := hm.string.mp hok
  have hdata : data.lookup "service" = some (.str service) := hraw
  obtain ⟨_, _, -, hok, hevents⟩ := Schema.accepts_required haccepts (hfield 2) rfl
  obtain ⟨events, rfl, hevents_length⟩ := exists_strings_of_list hm hok
  obtain ⟨_, _, hraw, hok, hconfig⟩ := Schema.accepts_required haccepts (hfield 3) rfl
  obtain ⟨config, rfl, hconfig_nodup, htakes⟩ :=
    exists_config_of_configField hm (hbody.of_lookup hraw) hdata hok
  have hmetadata : ∃ metadata, (d.lookup "metadata_").getD (.obj []) = .obj metadata ∧
      (metadata.map (·.1)).Nodup := by
    cases hv : d.lookup "metadata_" with
    | none => exact ⟨[], rfl, List.nodup_nil⟩
    | some v =>
      obtain ⟨raw, hraw, hok⟩ := Field.value_eq_some.mp ((hlookup _ (hfield 4)).symm.trans hv)
      obtain ⟨metadata, rfl, rfl⟩ := hm.dict.mp hok
      exact ⟨metadata, rfl, (hbody.of_lookup hraw).keys⟩
  obtain ⟨metadata, hmetadata, hmetadata_nodup⟩ := hmetadata
  refine ⟨name, service, events, config, metadata, ?_, hname_length, hservice_length,
    hevents_length, hconfig_nodup, htakes, hmetadata_nodup⟩
  exact ⟨(hlookup _ (hfield 0)).trans hname, (hlookup _ (hfield 1)).trans hservice,
    (hlookup _ (hfield 2)).trans hevents, (hlookup _ (hfield 3)).trans hconfig, hmetadata⟩

end Bodies

section AdminBodies
variable {mallow : AdminMallow} {body : Json} {d : LoadedDict}

theorem lookup_fillDefaults (d : LoadedDict) (key : String) :
    (fillDefaults d).lookup key =
      if key ∈ nullDefaults then some ((d.lookup key).getD .null) else d.lookup key := by
  have hfold : ∀ (keys : List String) (d : LoadedDict),
      (keys.foldl (fun d key => if key ∈ d then d else d.insert key .null) d).lookup key =
        if key ∈ keys then some ((d.lookup key).getD .null) else d.lookup key := by
    intro keys
    induction keys with
    | nil => simp
    | cons key' keys ih =>
      intro d
      rw [List.foldl_cons, ih]
      by_cases hkey : key = key'
      · subst hkey
        by_cases hmem : key ∈ d
        · obtain ⟨v, hv⟩ := Finmap.mem_iff.mp hmem
          simp [hmem, hv]
        · simp [hmem, Finmap.lookup_eq_none.mpr hmem]
      · have hsame : (if key' ∈ d then d else d.insert key' .null).lookup key =
            d.lookup key := by
          split_ifs
          · rfl
          · exact Finmap.lookup_insert_of_ne _ hkey
        simp [hsame, hkey]
  exact hfold nullDefaults d

/-- A column of a uuid that may be null. -/
def UuidColumn (uuid : Option String) : Prop := ∀ s, uuid = some s → s.length = 36

theorem exists_uuid_of_orNull (hm : mallow.Specified) {raw v : Json}
    (h : orNull (mallow.stringOf 36) raw = .ok v) :
    ∃ uuid, v = .ofNullable uuid ∧ UuidColumn uuid := by
  cases raw with
  | null =>
    cases h
    exact ⟨none, rfl, nofun⟩
  | _ =>
    obtain ⟨s, hs, -, rfl⟩ := hm.stringOf.mp h
    exact ⟨some s, rfl, fun _ heq => Option.some.inj heq ▸ hs⟩

/-- The ownership fields, which a body need not have. -/
theorem exists_uuid_of_load (hm : mallow.Specified)
    (h : mallow.load (subscriptionSchema mallow) body = .ok d) {f : Field}
    (hf : f ∈ (subscriptionSchema mallow).loadFields) (hname : f.name ∈ nullDefaults)
    (hfield : ∀ data, f.deserialize data = orNull (mallow.stringOf 36)) :
    ∃ uuid, (fillDefaults d).lookup f.name = some (.ofNullable uuid) ∧ UuidColumn uuid := by
  obtain ⟨data, -, -, hlookup⟩ := hm.loaded h
  rw [lookup_fillDefaults, if_pos hname]
  cases hv : d.lookup f.name with
  | none => exact ⟨none, rfl, nofun⟩
  | some v =>
    obtain ⟨raw, -, hok⟩ := Field.value_eq_some.mp ((hlookup f hf).symm.trans hv)
    rw [hfield] at hok
    obtain ⟨uuid, rfl, huuid⟩ := exists_uuid_of_orNull hm hok
    exact ⟨uuid, rfl, huuid⟩

theorem userFields_subset (mallow : AdminMallow) :
    ∀ f ∈ (userSubscriptionSchema mallow.toMallow).loadFields,
      f ∈ (subscriptionSchema mallow).loadFields := by
  intro f hf
  change f ∈ [_, _, _, _, _] at hf
  change f ∈ [_, _, _, _, _, _, _, _]
  simp only [List.mem_cons, List.not_mem_nil, or_false] at hf ⊢
  tauto

theorem UserBody.fillDefaults {name service : String} {events : List String}
    {config metadata : List (String × Json)} (hb : UserBody d name service events config metadata) :
    UserBody (fillDefaults d) name service events config metadata := by
  refine hb.congr fun field hfield => ?_
  rw [lookup_fillDefaults, if_neg]
  simp only [List.mem_cons, List.not_mem_nil, or_false] at hfield
  rcases hfield with rfl | rfl | rfl | rfl | rfl <;> decide

/-- The values of a body accepted by the schema of the administrators. -/
theorem accepted_of_loadSubscription (hm : mallow.Specified) (hbody : body.Distinct)
    (h : loadSubscription mallow body = .ok d) :
    (∃ name service events config metadata,
      UserBody d name service events (config.map fun p => (p.1, .str p.2)) metadata ∧
        Accepted mallow.toMallow name service events config metadata) ∧
    ∀ key ∈ nullDefaults, ∃ uuid, d.lookup key = some (.ofNullable uuid) ∧ UuidColumn uuid := by
  obtain ⟨d', hload, rfl⟩ := Except.exists_of_map_eq_ok h
  obtain ⟨name, service, events, config, metadata, hb, haccepted⟩ :=
    accepted_of_load hm.toSpecified hbody (userFields_subset mallow) hload
  refine ⟨⟨name, service, events, config, metadata, hb.fillDefaults, haccepted⟩, ?_⟩
  have hfield : ∀ i : Fin 8, (subscriptionSchema mallow).loadFields.get i ∈
      (subscriptionSchema mallow).loadFields := fun i =>
    List.get_mem (subscriptionSchema mallow).loadFields i
  intro key hkey
  simp only [nullDefaults, List.mem_cons, List.not_mem_nil, or_false] at hkey
  have hdefault : ∀ i : Fin 3, nullDefaults.get i ∈ nullDefaults := List.get_mem nullDefaults
  rcases hkey with rfl | rfl | rfl
  · exact exists_uuid_of_load hm hload (hfield 3) (hdefault 0) fun _ => rfl
  · exact exists_uuid_of_load hm hload (hfield 4) (hdefault 1) fun _ => rfl
  · exact exists_uuid_of_load hm hload (hfield 6) (hdefault 2) fun _ => rfl

end AdminBodies

section Plain

theorem filterMap_eq_iff_forall₂ {α β : Type} {f : α → Option β} {items : List α}
    {values : List β} : (items.all fun item => (f item).isSome) = true ∧
      items.filterMap f = values ↔ List.Forall₂ (fun item value => f item = some value) items
        values := by
  induction items generalizing values with
  | nil => simp [List.forall₂_nil_left_iff, eq_comm]
  | cons item items ih =>
    cases hitem : f item with
    | none => simp [List.forall₂_cons_left_iff, hitem]
    | some value =>
      rw [List.all_cons, List.filterMap_cons, hitem]
      constructor
      · rintro ⟨hall, rfl⟩
        exact .cons hitem (ih.mp ⟨hall, rfl⟩)
      · intro h
        cases h with
        | cons hok hrest =>
          obtain rfl := Option.some.inj (hitem.symm.trans hok)
          obtain ⟨hall, hvalues⟩ := ih.mpr hrest
          exact ⟨hall, congrArg _ hvalues⟩

theorem plain_list_eq_ok {field : Json → Except LoadError Json} {items values : List Json} :
    Mallow.plain.list field (.arr items) = .ok (.arr values) ↔
      List.Forall₂ (fun item value => field item = .ok value) items values := by
  have hoption : ∀ item value, field item = .ok value ↔ (field item).toOption = some value := by
    refine fun item value => ⟨fun h => ?_, eq_ok_of_toOption⟩
    rw [h]
    rfl
  simp only [hoption, ← filterMap_eq_iff_forall₂, Mallow.plain]
  split_ifs with hall
  · simp [hall]
  · simp [hall]

theorem plain_string_eq_ok {p : String → Prop} [DecidablePred p] {raw v : Json} :
    (match raw with
      | .str s => if p s then .ok (.str s) else .error (.validationError .null)
      | _ => .error (.validationError .null)) = (.ok v : Except LoadError Json) ↔
    ∃ s, p s ∧ raw = .str s ∧ v = .str s := by
  cases raw with
  | str s =>
    dsimp only
    split_ifs with hs
    · simp [hs, eq_comm]
    · simp [hs]
  | _ => simp

theorem AdminMallow.specified_plain : AdminMallow.plain.Specified where
  load := by
    intro schema body d
    refine ⟨Mallow.plain_load_ok, ?_⟩
    rintro ⟨data, rfl, haccepts, rfl⟩
    exact if_pos haccepts
  string := plain_string_eq_ok
  stringOf := plain_string_eq_ok
  list := by
    intro field raw v
    constructor
    · intro h
      obtain ⟨values, rfl, -⟩ := Mallow.documented_plain.list h
      cases raw with
      | arr items => exact ⟨items, values, plain_list_eq_ok.mp h, rfl, rfl⟩
      | _ => cases h
    · rintro ⟨items, values, hall, rfl, rfl⟩
      exact plain_list_eq_ok.mpr hall
  dict := by
    intro raw v
    constructor
    · intro h
      cases raw with
      | obj fields =>
        cases h
        exact ⟨fields, rfl, rfl⟩
      | _ => cases h
    · rintro ⟨fields, rfl, rfl⟩
      rfl
  stringDict := by
    intro raw v h
    cases raw with
    | obj fields =>
      simp only [AdminMallow.plain, Mallow.plain] at h
      split_ifs at h with hstrings
      cases h
      obtain ⟨strings, rfl⟩ := Json.exists_map_str_fields fun p hp =>
        Json.eq_str_of_asString (List.all_eq_true.mp hstrings p hp)
      exact ⟨strings, rfl, rfl⟩
    | _ => cases h
  stringDict_perm := by
    intro fields fields' hperm h
    simp only [AdminMallow.plain, Mallow.plain] at h ⊢
    split_ifs at h with hstrings
    rw [if_pos]
    rw [List.all_eq_true] at hstrings ⊢
    exact fun p hp => hstrings p (hperm.mem_iff.mpr hp)
  oneOf := by
    intro choices s
    simp only [AdminMallow.plain, Mallow.plain]
    split_ifs with hs <;> simp [hs]

end Plain

end WazoWebhookd

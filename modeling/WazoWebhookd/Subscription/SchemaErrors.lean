import WazoWebhookd.Library.Failing
import WazoWebhookd.Subscription.AdminSchema

/-! The exceptions that come out of the two schemas, whatever the body of the request. -/
namespace WazoWebhookd

/-- A dictionary, or a `ValidationError`. -/
def Expected {α : Type} (x : Except LoadError α) : Prop :=
  (∃ a, x = .ok a) ∨ ∃ messages, x = .error (.validationError messages)

section Expected
variable {α β : Type}

theorem expected_ok (a : α) : Expected (.ok a) := .inl ⟨a, rfl⟩

theorem expected_validationError (messages : Json) :
    Expected (.error (.validationError messages) : Except LoadError α) := .inr ⟨messages, rfl⟩

theorem expected_ite {p : Prop} [Decidable p] (a : α) (messages : Json) :
    Expected (if p then .ok a else .error (.validationError messages)) := by
  split_ifs
  · exact expected_ok a
  · exact expected_validationError messages

theorem not_expected_attributeError : ¬ Expected (.error .attributeError : Except LoadError α) := by
  rintro (⟨a, h⟩ | ⟨messages, h⟩) <;> cases h

theorem Expected.bind {x : Except LoadError α} {k : α → Except LoadError β} (hx : Expected x)
    (hk : ∀ a, x = .ok a → Expected (k a)) : Expected (x >>= k) := by
  rcases hx with ⟨a, rfl⟩ | ⟨messages, rfl⟩
  · exact hk a rfl
  · exact expected_validationError messages

theorem expected_map_iff {x : Except LoadError α} {f : α → β} :
    Expected (x.map f) ↔ Expected x := by
  cases x with
  | ok a => exact iff_of_true (expected_ok (f a)) (expected_ok a)
  | error e => simp [Expected, Except.map]

theorem expected_forM {x : Option α} {check : α → Except LoadError Unit}
    (h : ∀ a, x = some a → Expected (check a)) : Expected (x.forM check) := by
  cases x with
  | none => exact expected_ok ()
  | some a => exact h a rfl

end Expected

/-- What marshmallow documents of exceptions: its fields raise a `ValidationError`, a load collects
them, and any other exception of a field leaves the load. -/
structure Mallow.Propagates (mallow : Mallow) : Prop where
  load : ∀ schema body, Expected (mallow.load schema body) ↔
    ∀ data, body = .obj data → ∀ f ∈ schema.loadFields, ∀ raw,
      data.lookup f.dataKey = some raw → Expected (f.deserialize data raw)
  string : ∀ max raw, Expected (mallow.string max raw)
  list : ∀ field, (∀ raw, Expected (field raw)) → ∀ raw, Expected (mallow.list field raw)
  dict : ∀ raw, Expected (mallow.dict raw)
  stringDict : ∀ raw, Expected (mallow.stringDict raw)
  oneOf : ∀ choices s, Expected (mallow.oneOf choices s)
  nullError : ∃ messages, mallow.nullError = .validationError messages

structure AdminMallow.Propagates (mallow : AdminMallow) : Prop extends
    mallow.toMallow.Propagates where
  stringOf : ∀ length raw, Expected (mallow.stringOf length raw)

/-- An http subscription whose config is neither an object nor null. -/
def MistypedHttpConfig (body : Json) : Prop :=
  ∃ data config, body = .obj data ∧ data.lookup "service" = some (.str "http") ∧
    data.lookup "config" = some config ∧ config ≠ .null ∧ ∀ fields, config ≠ .obj fields

section Config
variable {mallow : Mallow}

theorem expected_validateVerify (verify : String) : Expected (validateVerify (.str verify)) := by
  simp only [validateVerify]
  exact expected_ite () _

/-- Once the config is an object, what each hook meets has been established before it. -/
theorem expected_loadHttpConfig (hm : mallow.Documented) (hp : mallow.Propagates)
    (fields : List (String × Json)) : Expected (loadHttpConfig mallow (.obj fields)) := by
  unfold loadHttpConfig
  refine (expected_ok _).bind fun raw _ => ?_
  have hload : Expected (mallow.load (httpSubscriptionConfigSchema mallow) raw) := by
    refine (hp.load _ _).mpr fun data _ f hf value _ => ?_
    obtain ⟨max, hmax⟩ := exists_string_of_httpField hf
    rw [hmax]
    exact hp.string max value
  refine hload.bind fun data hdata => ?_
  obtain ⟨method, hmethod⟩ := lookup_method_of_load hm hdata
  have hverify : ∀ v, data.lookup "verify_certificate" = some v → ∃ s, v = .str s := fun v hv =>
    exists_str_of_httpField hm hdata (httpField_mem 3) hv
  refine Expected.bind ?_ fun _ _ => Expected.bind ?_ fun _ _ => ?_
  · refine expected_forM fun v hv => ?_
    obtain rfl := Option.some.inj (hmethod.symm.trans hv)
    exact hp.oneOf _ _
  · refine expected_forM fun v hv => ?_
    obtain ⟨verify, rfl⟩ := hverify v hv
    exact expected_validateVerify verify
  · unfold lowercaseMethod
    rw [hmethod]
    exact expected_ok _

/-- The hook before the load takes the config for an object. -/
theorem not_expected_loadHttpConfig {config : Json} (h : ∀ fields, config ≠ .obj fields) :
    ¬ Expected (loadHttpConfig mallow config) := by
  have hraised : loadHttpConfig mallow config = .error .attributeError := by
    cases config with
    | obj fields => exact absurd rfl (h fields)
    | _ => rfl
  rw [hraised]
  exact not_expected_attributeError

theorem configField_http {data : List (String × Json)} {config : Json}
    (hservice : data.lookup "service" = some (.str "http")) (hnull : config ≠ .null) :
    configField mallow data config =
      (loadHttpConfig mallow config).map (httpSubscriptionConfigSchema mallow).toJson := by
  cases config with
  | null => exact absurd rfl hnull
  | _ => simp only [configField, hservice]

theorem expected_configField_other (hp : mallow.Propagates) {data : List (String × Json)}
    {config : Json} (h : data.lookup "service" ≠ some (.str "http") ∨ config = .null) :
    Expected (configField mallow data config) := by
  obtain ⟨messages, hnull⟩ := hp.nullError
  unfold configField
  split
  · rw [hnull]
    exact expected_validationError _
  · rename_i hvalue
    split
    · exact expected_validationError _
    · exact expected_validationError _
    · rename_i hservice
      rcases h with hne | rfl
      · exact absurd hservice hne
      · exact absurd rfl hvalue
    · exact hp.stringDict _

theorem expected_configField_iff (hm : mallow.Documented) (hp : mallow.Propagates)
    {data : List (String × Json)} {config : Json} :
    Expected (configField mallow data config) ↔ ¬ (data.lookup "service" = some (.str "http") ∧
      config ≠ .null ∧ ∀ fields, config ≠ .obj fields) := by
  by_cases hother : data.lookup "service" ≠ some (.str "http") ∨ config = .null
  · refine iff_of_true (expected_configField_other hp hother) ?_
    rintro ⟨hservice, hnull, -⟩
    exact hother.elim (fun h => h hservice) hnull
  · obtain ⟨hservice, hnull⟩ := not_or.mp hother
    rw [not_not] at hservice
    rw [configField_http hservice hnull, expected_map_iff]
    by_cases hobj : ∀ fields, config ≠ .obj fields
    · exact iff_of_false (not_expected_loadHttpConfig hobj) (not_not.mpr ⟨hservice, hnull, hobj⟩)
    · refine iff_of_true ?_ fun h => hobj h.2.2
      simp only [not_forall, not_not] at hobj
      obtain ⟨fields, rfl⟩ := hobj
      exact expected_loadHttpConfig hm hp fields

/-- A schema whose config is such a field, and whose other fields raise nothing unexpected. -/
theorem expected_load_iff (hm : mallow.Documented) (hp : mallow.Propagates) {schema : Schema}
    (hconfig : ∃ f ∈ schema.loadFields, f.dataKey = "config" ∧ f.deserialize = configField mallow)
    (hother : ∀ f ∈ schema.loadFields, (f.dataKey = "config" ∧ f.deserialize = configField mallow) ∨
      ∀ data raw, Expected (f.deserialize data raw)) (body : Json) :
    Expected (mallow.load schema body) ↔ ¬ MistypedHttpConfig body := by
  rw [hp.load]
  constructor
  · rintro h ⟨data, config, rfl, hservice, hraw, hnull, hobj⟩
    obtain ⟨f, hf, hkey, hdeserialize⟩ := hconfig
    have hexpected := h data rfl f hf config (hkey ▸ hraw)
    rw [hdeserialize, expected_configField_iff hm hp] at hexpected
    exact hexpected ⟨hservice, hnull, hobj⟩
  · rintro h data rfl f hf raw hraw
    rcases hother f hf with ⟨hkey, hdeserialize⟩ | hexpected
    · rw [hdeserialize, expected_configField_iff hm hp]
      rintro ⟨hservice, hnull, hobj⟩
      exact h ⟨data, raw, rfl, hservice, hkey ▸ hraw, hnull, hobj⟩
    · exact hexpected data raw

end Config

theorem expected_orNull {deserialize : Json → Except LoadError Json}
    (h : ∀ raw, Expected (deserialize raw)) (raw : Json) : Expected (orNull deserialize raw) := by
  cases raw with
  | null => exact expected_ok _
  | _ => exact h _

/-- Each of the two loads ends with a dictionary or a `ValidationError`, unless the body asks for
an http subscription with a config of another type. -/
theorem loads_expected_iff {mallow : AdminMallow} (hm : mallow.toMallow.Documented)
    (hp : mallow.Propagates) (body : Json) :
    (Expected (loadSubscription mallow body) ↔ ¬ MistypedHttpConfig body) ∧
      (Expected (mallow.load (userSubscriptionSchema mallow.toMallow) body) ↔
        ¬ MistypedHttpConfig body) := by
  have hstring : ∀ max raw, Expected (mallow.string max raw) := hp.string
  have hevents : ∀ raw, Expected (mallow.list (mallow.string 128) raw) := hp.list _ (hp.string 128)
  have huuid : ∀ raw, Expected (orNull (mallow.stringOf 36) raw) := expected_orNull (hp.stringOf 36)
  constructor
  · unfold loadSubscription
    rw [expected_map_iff]
    refine expected_load_iff hm hp.toPropagates ?_ ?_ body
    · have hmem : (subscriptionSchema mallow).loadFields.get (5 : Fin 8) ∈
          (subscriptionSchema mallow).loadFields :=
        List.get_mem (subscriptionSchema mallow).loadFields (5 : Fin 8)
      exact ⟨_, hmem, rfl, rfl⟩
    · intro f hf
      change f ∈ [_, _, _, _, _, _, _, _] at hf
      simp only [List.mem_cons, List.not_mem_nil, or_false] at hf
      rcases hf with rfl | rfl | rfl | rfl | rfl | rfl | rfl | rfl
      · exact .inr fun _ => hstring 128
      · exact .inr fun _ => hstring 128
      · exact .inr fun _ => hevents
      · exact .inr fun _ => huuid
      · exact .inr fun _ => huuid
      · exact .inl ⟨rfl, rfl⟩
      · exact .inr fun _ => huuid
      · exact .inr fun _ => hp.dict
  · refine expected_load_iff hm hp.toPropagates ?_ ?_ body
    · have hmem : (userSubscriptionSchema mallow.toMallow).loadFields.get (3 : Fin 5) ∈
          (userSubscriptionSchema mallow.toMallow).loadFields :=
        List.get_mem (userSubscriptionSchema mallow.toMallow).loadFields (3 : Fin 5)
      exact ⟨_, hmem, rfl, rfl⟩
    · intro f hf
      change f ∈ [_, _, _, _, _] at hf
      simp only [List.mem_cons, List.not_mem_nil, or_false] at hf
      rcases hf with rfl | rfl | rfl | rfl | rfl
      · exact .inr fun _ => hstring 128
      · exact .inr fun _ => hstring 128
      · exact .inr fun _ => hevents
      · exact .inl ⟨rfl, rfl⟩
      · exact .inr fun _ => hp.dict

def unexpectedError {α : Type} : Except LoadError α → Option LoadError
  | .ok _ | .error (.validationError _) => none
  | .error e => some e

theorem expected_iff_unexpectedError {α : Type} {x : Except LoadError α} :
    Expected x ↔ unexpectedError x = none := by
  cases x with
  | ok a => exact iff_of_true (expected_ok a) rfl
  | error e =>
    cases e with
    | validationError messages => exact iff_of_true (expected_validationError messages) rfl
    | attributeError => exact iff_of_false not_expected_attributeError (by simp [unexpectedError])
    | keyError key => exact iff_of_false (by simp [Expected]) (by simp [unexpectedError])

def Schema.unexpected (schema : Schema) (data : List (String × Json)) : Option LoadError :=
  schema.loadFields.findSome? fun f =>
    (data.lookup f.dataKey).bind fun raw => unexpectedError (f.deserialize data raw)

/-- Libraries that report no messages, and let the other exceptions through. -/
def Mallow.strict : Mallow :=
  { Mallow.plain with
    load := fun schema body => match body.asFields.bind schema.unexpected with
      | some e => .error e
      | none => Mallow.plain.load schema body }

section Strict
variable {schema : Schema}

theorem Mallow.strict_load_ok {body : Json} {d : LoadedDict}
    (h : Mallow.strict.load schema body = .ok d) : Mallow.plain.load schema body = .ok d := by
  simp only [Mallow.strict] at h
  split at h
  · cases h
  · exact h

theorem Mallow.documented_strict : Mallow.strict.Documented where
  excludes hx h := documented_plain.excludes hx (strict_load_ok h)
  requires h := documented_plain.requires (strict_load_ok h)
  deserializes h := documented_plain.deserializes (strict_load_ok h)
  string := documented_plain.string
  list := documented_plain.list
  dict := documented_plain.dict
  stringDict := documented_plain.stringDict

theorem Schema.unexpected_eq_none {data : List (String × Json)} :
    schema.unexpected data = none ↔ ∀ f ∈ schema.loadFields, ∀ raw,
      data.lookup f.dataKey = some raw → Expected (f.deserialize data raw) := by
  simp only [unexpected, List.findSome?_eq_none_iff, Option.bind_eq_none_iff,
    expected_iff_unexpectedError]

theorem Mallow.expected_plain_load (body : Json) : Expected (Mallow.plain.load schema body) := by
  cases body with
  | obj data => exact expected_ite _ _
  | _ => exact expected_validationError _

theorem Schema.not_expected_of_unexpected {data : List (String × Json)} {e : LoadError}
    (h : schema.unexpected data = some e) :
    ¬ Expected (.error e : Except LoadError LoadedDict) := by
  obtain ⟨f, -, hf⟩ := List.exists_of_findSome?_eq_some h
  obtain ⟨raw, -, hraised⟩ := Option.bind_eq_some_iff.mp hf
  rw [expected_iff_unexpectedError]
  unfold unexpectedError at hraised
  split at hraised
  · cases hraised
  · cases hraised
  · obtain rfl := Option.some.inj hraised
    simp_all [unexpectedError]

theorem Mallow.expected_strict_load (body : Json) :
    Expected (Mallow.strict.load schema body) ↔ ∀ data, body = .obj data →
      ∀ f ∈ schema.loadFields, ∀ raw, data.lookup f.dataKey = some raw →
        Expected (f.deserialize data raw) := by
  simp only [Mallow.strict]
  cases hbody : body.asFields.bind schema.unexpected with
  | none =>
    refine iff_of_true (expected_plain_load body) ?_
    rintro data rfl
    exact Schema.unexpected_eq_none.mp hbody
  | some e =>
    obtain ⟨data, hdata, hraised⟩ := Option.bind_eq_some_iff.mp hbody
    refine iff_of_false (Schema.not_expected_of_unexpected hraised) fun h => ?_
    have hobj : body = .obj data := by
      cases body <;> cases hdata
      rfl
    rw [Schema.unexpected_eq_none.mpr (h data hobj)] at hraised
    cases hraised

end Strict

def AdminMallow.strict : AdminMallow where
  toMallow := Mallow.strict
  stringOf := AdminMallow.plain.stringOf

theorem AdminMallow.propagates_strict : AdminMallow.strict.Propagates where
  load _ body := Mallow.expected_strict_load body
  string max raw := by
    cases raw with
    | str s => exact expected_ite _ _
    | _ => exact expected_validationError _
  list field _ raw := by
    cases raw with
    | arr items => exact expected_ite _ _
    | _ => exact expected_validationError _
  dict raw := by
    cases raw with
    | obj fields => exact expected_ok _
    | _ => exact expected_validationError _
  stringDict raw := by
    cases raw with
    | obj fields => exact expected_ite _ _
    | _ => exact expected_validationError _
  oneOf choices s := expected_ite () _
  nullError := ⟨.null, rfl⟩
  stringOf length raw := by
    cases raw with
    | str s => exact expected_ite _ _
    | _ => exact expected_validationError _

def httpBody (config : Json) : Json :=
  .obj [("name", .str "s"), ("service", .str "http"), ("events", .arr [.str "call_created"]),
    ("config", config)]

theorem loads_expected_nested :
    let body := httpBody (.obj [("url", .arr [.obj []]), ("body", .null)])
    Expected (loadSubscription AdminMallow.strict body) ∧
      Expected (AdminMallow.strict.load
        (userSubscriptionSchema AdminMallow.strict.toMallow) body) := by
  intro body
  have h := loads_expected_iff Mallow.documented_strict AdminMallow.propagates_strict body
  have htyped : ¬ MistypedHttpConfig body := by
    rintro ⟨data, config, hbody, -, hconfig, -, hobj⟩
    obtain rfl := Json.obj.inj hbody
    exact hobj _ (Option.some.inj hconfig).symm
  exact ⟨h.1.mpr htyped, h.2.mpr htyped⟩

/-- A config that is a string leaves both loads with an `AttributeError`. -/
theorem string_config_raises :
    let body := httpBody (.str "http://example.com")
    loadSubscription AdminMallow.strict body = .error .attributeError ∧
      AdminMallow.strict.load (userSubscriptionSchema AdminMallow.strict.toMallow) body =
        .error .attributeError ∧
      ¬ Expected (loadSubscription AdminMallow.strict body) ∧
      ¬ Expected (AdminMallow.strict.load
        (userSubscriptionSchema AdminMallow.strict.toMallow) body) :=
  ⟨rfl, rfl, not_expected_attributeError, not_expected_attributeError⟩

end WazoWebhookd

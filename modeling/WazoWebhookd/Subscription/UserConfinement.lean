import WazoWebhookd.Library.KeyedList
import WazoWebhookd.Library.Run
import WazoWebhookd.Subscription.UserEndpoints

/-! The user endpoints over whole runs: whose subscriptions a request shows and changes, and
what becomes of the ownership columns. -/
namespace WazoWebhookd
open Failing SubscriptionService

def Token.Owns (token : Token) (s : Subscription) : Prop :=
  s.ownerTenantUuid = token.tenantUuid ∧ s.ownerUserUuid = some token.userUuid

instance (token : Token) (s : Subscription) : Decidable (token.Owns s) :=
  inferInstanceAs (Decidable (_ ∧ _))

/-- The ownership columns are those a `post` with the token gives. -/
structure Token.Origin (token : Token) (s : Subscription) : Prop where
  ownerTenant : s.ownerTenantUuid = token.tenantUuid
  ownerUser : s.ownerUserUuid = some token.userUuid
  eventsUser : s.eventsUserUuid = some token.userUuid
  eventsWazo : s.eventsWazoUuid = some token.xivoUuid

/-- Two versions of a subscription with the same key and ownership columns. -/
structure SameOwnership (s s' : Subscription) : Prop where
  uuid : s'.uuid = s.uuid
  ownerTenant : s'.ownerTenantUuid = s.ownerTenantUuid
  ownerUser : s'.ownerUserUuid = s.ownerUserUuid
  eventsUser : s'.eventsUserUuid = s.eventsUserUuid
  eventsWazo : s'.eventsWazoUuid = s.eventsWazoUuid

theorem Token.Owns.congr {token : Token} {s s' : Subscription} (h : SameOwnership s s')
    (ho : token.Owns s) : token.Owns s' :=
  ⟨h.ownerTenant.trans ho.1, h.ownerUser.trans ho.2⟩

theorem Token.Origin.congr {token : Token} {s s' : Subscription} (h : SameOwnership s s')
    (ho : token.Origin s) : token.Origin s' where
  ownerTenant := h.ownerTenant.trans ho.ownerTenant
  ownerUser := h.ownerUser.trans ho.ownerUser
  eventsUser := h.eventsUser.trans ho.eventsUser
  eventsWazo := h.eventsWazo.trans ho.eventsWazo

theorem Token.Origin.owns {token : Token} {s : Subscription} (h : token.Origin s) :
    token.Owns s := ⟨h.ownerTenant, h.ownerUser⟩

theorem truthy_userUuid (token : Token) :
    truthy (some token.userUuid) = some token.userUuid :=
  truthy_of_ne fun h => token.userUuid_ne (Option.some.inj h)

/-- The filters of the user endpoints leave the subscriptions of the user. -/
theorem visible_iff_owns (token : Token) (s : Subscription) :
    Visible [token.tenantUuid] (some token.userUuid) s ↔ token.Owns s := by
  unfold Visible Token.Owns
  rw [truthy_userUuid]
  simp

theorem find_eq_none_of_foreign {database : List Subscription} {token : Token} {uuid : String}
    (h : ∀ s ∈ database, s.uuid = uuid → ¬ token.Owns s) :
    find database uuid [token.tenantUuid] (some token.userUuid) = none := by
  unfold find
  rw [List.find?_eq_none]
  intro s hs hp
  obtain ⟨huuid, hvisible⟩ := of_decide_eq_true hp
  exact h s hs huuid ((visible_iff_owns token s).mp hvisible)

section Columns
variable {mallow : Mallow} {body : Json} {d : LoadedDict}

/-- A body of the user schema assigns none of the ownership columns. -/
theorem ofDict_load (hm : mallow.Documented)
    (h : mallow.load (userSubscriptionSchema mallow) body = .ok d) (text : Json → Option String) :
    ∃ k, SchemaKwargs.ofDict text d = some k ∧ k.eventsWazoUuid = none ∧
      k.eventsUserUuid = none ∧ k.ownerUserUuid = none ∧ k.ownerTenantUuid = none := by
  obtain ⟨name, service, events, config, metadata, hb⟩ := userBody_of_load hm h
  refine hb.ofDict text ?_ ?_ ?_ ?_
  · rw [hm.lookup_excluded rfl h (notMem_names (by decide))]
    rfl
  · rw [hm.lookup_excluded rfl h (notMem_names (by decide))]
    rfl
  · rw [hm.lookup_excluded rfl h (notMem_names (by decide))]
    rfl
  · rw [hm.lookup_excluded rfl h (notMem_names (by decide))]
    rfl

/-- With what `post` adds to it, a body assigns all of them from the token. -/
theorem ofDict_owned (hm : mallow.Documented)
    (h : mallow.load (userSubscriptionSchema mallow) body = .ok d) (text : Json → Option String)
    (token : Token) :
    ∃ k, SchemaKwargs.ofDict text (UserSubscriptionsResource.owned token d) = some k ∧
      k.eventsWazoUuid = some (some token.xivoUuid) ∧
      k.eventsUserUuid = some (some token.userUuid) ∧
      k.ownerUserUuid = some (some token.userUuid) ∧
      k.ownerTenantUuid = some token.tenantUuid := by
  obtain ⟨name, service, events, config, metadata, hb⟩ := userBody_of_load hm h
  have howned : UserBody (UserSubscriptionsResource.owned token d) name service events config
      metadata :=
    (((hb.insert (by decide) _).insert (by decide) _).insert (by decide) _).insert (by decide) _
  refine howned.ofDict text ?_ ?_ ?_ ?_ <;> unfold UserSubscriptionsResource.owned
  · rw [Finmap.lookup_insert]
    rfl
  · rw [Finmap.lookup_insert_of_ne _ (by decide), Finmap.lookup_insert_of_ne _ (by decide),
      Finmap.lookup_insert]
    rfl
  · rw [Finmap.lookup_insert_of_ne _ (by decide), Finmap.lookup_insert]
    rfl
  · rw [Finmap.lookup_insert_of_ne _ (by decide), Finmap.lookup_insert_of_ne _ (by decide),
      Finmap.lookup_insert_of_ne _ (by decide), Finmap.lookup_insert]
    rfl

end Columns

def Response.shown : Response → List SubscriptionDict
  | .items subscriptions _ => subscriptions
  | .item subscription => [subscription]
  | .noContent => []

/-- What a request of the user can come to. -/
inductive Served (token : Token) (w : World) :
    UserRequest → Except RestError Response × World → Prop
  | failed {request : UserRequest} (e : RestError) {w' : World} (hd : w'.database = w.database) :
    Served token w request (.error e, w')
  | read {request : UserRequest} {response : Response}
    (hshown : ∀ d ∈ response.shown, ∃ s ∈ w.database, token.Owns s ∧ d = dump s)
    (hpost : ∀ uuid json, request ≠ .post uuid json) :
    Served token w request (.ok response, w)
  | created {uuid : String} {json : Json} {s : Subscription} {w' : World} (huuid : s.uuid = uuid)
    (horigin : token.Origin s) (hc : Constraints w'.database)
    (hd : w'.database = liveAfter w.database (.created s)) :
    Served token w (.post uuid json) (.ok (.item (dump s)), w')
  | updated {uuid : String} {json : Json} {order : List String} {s s' : Subscription} {w' : World}
    (hs : s ∈ w.database) (howns : token.Owns s) (hsame : SameOwnership s s')
    (hc : Constraints w'.database) (hd : w'.database = liveAfter w.database (.updated s' order)) :
    Served token w (.put uuid json order) (.ok (.item (dump s')), w')
  | deleted {uuid : String} {s : Subscription} {w' : World} (hs : s ∈ w.database)
    (howns : token.Owns s) (hc : Constraints w'.database)
    (hd : w'.database = liveAfter w.database (.deleted s)) :
    Served token w (.delete uuid) (.ok .noContent, w')

section Serve
variable {mallow : Mallow} (hm : mallow.Documented) (text : Json → Option String)
  (master : String) (fault : Option Fault) (token : Token) (w : World)

variable {token w} in
theorem served_bind {α : Type} {request : UserRequest} {x : RestM α} {k : α → RestM Response}
    (hx : Reads x)
    (hk : ∀ a, exec x w = (.ok a, w) → Served token w request (exec (k a) w)) :
    Served token w request (exec (x >>= k) w) := by
  rcases hx.exec_bind_cases k w with ⟨e, he⟩ | ⟨a, ha, hok⟩
  · rw [he]
    exact .failed e rfl
  · rw [hok]
    exact hk a ha

theorem served_list (args : List (String × String)) :
    Served token w (.list args)
      (exec (UserSubscriptionsResource.get mallow fault token args) w) := by
  unfold UserSubscriptionsResource.get
  refine served_bind (reads_raising _ (reads_ofExcept _)) fun params _ => ?_
  refine served_bind (reads_raising _ (reads_list _ _ _ _ _)) fun subscriptions hlist => ?_
  have hvisible := mem_of_exec_list (exec_of_exec_raising hlist)
  have hshown : ∀ d ∈ subscriptions.map dump, ∃ s ∈ w.database, token.Owns s ∧ d = dump s := by
    intro d hd
    obtain ⟨s, hs, rfl⟩ := List.mem_map.mp hd
    exact ⟨s, (hvisible s hs).1, (visible_iff_owns token s).mp (hvisible s hs).2, rfl⟩
  exact .read hshown (by simp)

theorem served_get (uuid : String) :
    Served token w (.get uuid) (exec (UserSubscriptionResource.get fault token uuid) w) := by
  unfold UserSubscriptionResource.get
  refine served_bind (reads_raising _ (reads_get _ _ _ _)) fun s hget => ?_
  obtain ⟨hmem, -, hvisible⟩ := mem_of_exec_get_ (exec_of_exec_raising hget)
  have howns : token.Owns s := (visible_iff_owns token s).mp hvisible
  have hshown : ∀ d ∈ [dump s], ∃ t ∈ w.database, token.Owns t ∧ d = dump t :=
    fun d hd => ⟨s, hmem, howns, List.mem_singleton.mp hd⟩
  exact .read hshown (by simp)

variable {w}

include hm in
theorem served_post (uuid : String) (json : Json) :
    Served token w (.post uuid json)
      (exec (UserSubscriptionsResource.post mallow text master fault token uuid json) w) := by
  unfold UserSubscriptionsResource.post
  refine served_bind (reads_raising _ (reads_ofExcept _)) fun d hd => ?_
  obtain ⟨k, hk, hwazo, hevents, howner, htenant⟩ :=
    ofDict_owned hm (eq_ok_of_exec_raising hd) text token
  rw [exec_bind_of_ok (exec_keywords hk)]
  rcases exec_create_cases master fault w uuid k with ⟨e, w', he, hd⟩ | ⟨s, w', hok, ha, hd⟩
  · rw [exec_bind_of_error (exec_raising_of_error _ he)]
    exact .failed _ hd
  · rw [exec_bind_of_ok (exec_raising_of_ok _ hok)]
    obtain ⟨tenantUuid, -, hs, hc⟩ := ServiceCall.announced_create ha
    cases hs
    have horigin : token.Origin ((Subscription.blank uuid tenantUuid).fromSchema k) := by
      constructor
      · simp [Subscription.fromSchema, htenant]
      · simp [Subscription.fromSchema, howner]
      · simp [Subscription.fromSchema, hevents]
      · simp [Subscription.fromSchema, hwazo]
    have hc' : Constraints w'.database := hd ▸ hc
    exact .created rfl horigin hc' hd

include hm in
theorem served_put (hw : Constraints w.database) (uuid : String) (json : Json)
    (order : List String) :
    Served token w (.put uuid json order)
      (exec (UserSubscriptionResource.put mallow text master fault token uuid json order) w) := by
  unfold UserSubscriptionResource.put
  refine served_bind (reads_raising _ (reads_ofExcept _)) fun d hd => ?_
  obtain ⟨k, hk, hwazo, hevents, howner, htenant⟩ :=
    ofDict_load hm (eq_ok_of_exec_raising hd) text
  rw [exec_bind_of_ok (exec_keywords hk)]
  rcases exec_update_cases master fault hw uuid k order [token.tenantUuid]
    (some token.userUuid) with ⟨e, w', he, hd⟩ | ⟨s', w', hok, ha, hd⟩
  · rw [exec_bind_of_error (exec_raising_of_error _ he)]
    exact .failed _ hd
  · rw [exec_bind_of_ok (exec_raising_of_ok _ hok)]
    obtain ⟨s, hs, hs', hc⟩ := ServiceCall.announced_update ha
    obtain ⟨hmem, -, hvisible⟩ := mem_of_find hs
    cases hs'
    have hsame : SameOwnership s (s.clearRelations.fromSchema k) := by
      constructor <;> simp [Subscription.fromSchema, Subscription.clearRelations, *]
    have howns : token.Owns s := (visible_iff_owns token s).mp hvisible
    have hc' : Constraints w'.database := hd ▸ hc
    exact .updated hmem howns hsame hc' hd

theorem served_delete (hw : Constraints w.database) (uuid : String) :
    Served token w (.delete uuid)
      (exec (UserSubscriptionResource.delete master fault token uuid) w) := by
  unfold UserSubscriptionResource.delete
  rcases exec_delete_cases master fault w uuid [token.tenantUuid] (some token.userUuid) with
    ⟨e, w', he, hd⟩ | ⟨s, w', hok, ha, hd⟩
  · rw [exec_bind_of_error (exec_raising_of_error _ he)]
    exact .failed _ hd
  · rw [exec_bind_of_ok (exec_raising_of_ok _ hok)]
    obtain ⟨s, hs, hn⟩ := ServiceCall.announced_delete ha
    cases hn
    obtain ⟨hmem, -, hvisible⟩ := mem_of_find hs
    have howns : token.Owns s := (visible_iff_owns token s).mp hvisible
    have hc := ServiceCall.constraints_announced hw ha
    have hc' : Constraints w'.database := hd ▸ hc
    exact .deleted hmem howns hc' hd

include hm in
theorem served (hw : Constraints w.database) (request : UserRequest) :
    Served token w request (exec (request.serve mallow text master fault token) w) := by
  cases request with
  | list args => exact served_list fault token w args
  | post uuid json => exact served_post hm text master fault token uuid json
  | get uuid => exact served_get fault token w uuid
  | put uuid json order => exact served_put hm text master fault token hw uuid json order
  | delete uuid => exact served_delete master fault token hw uuid

end Serve

section Step
variable {token : Token} {w : World} {request : UserRequest}
  {result : Except RestError Response × World}

theorem Served.constraints (h : Served token w request result) (hw : Constraints w.database) :
    Constraints result.2.database := by
  cases h with
  | failed e hd => exact hd ▸ hw
  | read hshown hpost => exact hw
  | created huuid horigin hc hd => exact hc
  | updated hs howns hsame hc hd => exact hc
  | deleted hs howns hc hd => exact hc

/-- A request leaves the subscriptions of the others as they are. -/
theorem Served.others (h : Served token w request result) (hw : Constraints w.database) :
    (result.2.database.filter fun s => ¬ token.Owns s) =
      w.database.filter fun s => ¬ token.Owns s := by
  cases h with
  | failed e hd => rw [hd]
  | read hshown hpost => rfl
  | created huuid horigin hc hd => simp [hd, liveAfter, List.filter_append, horigin.owns]
  | @updated uuid json order s s' w' hs howns hsame hc hd =>
    rw [hd]
    refine KeyedList.filter_replace Subscription.uuid ?_ ?_
    · simpa using howns.congr hsame
    · intro t ht huuid
      obtain rfl := hw.uuid_inj hs ht (hsame.uuid.symm.trans huuid.symm)
      simpa using howns
  | @deleted uuid s w' hs howns hc hd =>
    rw [hd]
    refine KeyedList.filter_remove Subscription.uuid ?_
    intro t ht huuid
    obtain rfl := hw.uuid_inj hs ht huuid.symm
    simpa using howns

theorem Served.shown (h : Served token w request result) {response : Response}
    (hr : result.1 = .ok response) :
    ∀ d ∈ response.shown, ∃ s ∈ result.2.database, token.Owns s ∧ d = dump s := by
  cases h with
  | failed e hd => cases hr
  | read hshown hpost =>
    cases hr
    exact hshown
  | @created uuid json s w' huuid horigin hc hd =>
    cases hr
    intro d hmem
    refine ⟨s, ?_, horigin.owns, List.mem_singleton.mp hmem⟩
    rw [hd]
    exact List.mem_append_right _ List.mem_cons_self
  | @updated uuid json order s s' w' hs howns hsame hc hd =>
    cases hr
    intro d hmem
    refine ⟨s', ?_, howns.congr hsame, List.mem_singleton.mp hmem⟩
    rw [hd]
    exact (mem_liveAfter_updated order).mpr (Or.inl ⟨rfl, s, hs, hsame.uuid.symm⟩)
  | deleted hs howns hc hd =>
    cases hr
    intro d hmem
    cases hmem

def creators (token : Token) (creator : String → Option Token) :
    UserRequest → Except RestError Response → String → Option Token
  | .post uuid _, .ok _ => Function.update creator uuid (some token)
  | _, _ => creator

/-- Every stored subscription that the endpoints created has the ownership columns of the
token that created it. -/
def KeepsOrigin (creator : String → Option Token) (database : List Subscription) : Prop :=
  ∀ s ∈ database, ∀ token, creator s.uuid = some token → token.Origin s

theorem KeepsOrigin.of_former {creator : String → Option Token}
    {database database' : List Subscription} (hk : KeepsOrigin creator database)
    (h : ∀ s' ∈ database', ∃ s ∈ database, SameOwnership s s') : KeepsOrigin creator database' := by
  intro s' hs' token htoken
  obtain ⟨s, hs, hsame⟩ := h s' hs'
  exact (hk s hs token (hsame.uuid ▸ htoken)).congr hsame

theorem KeepsOrigin.deleted {creator : String → Option Token} {database : List Subscription}
    (hk : KeepsOrigin creator database) (s : Subscription) :
    KeepsOrigin creator (liveAfter database (.deleted s)) :=
  fun t ht => hk t (mem_liveAfter_deleted.mp ht).1

theorem Served.keepsOrigin (h : Served token w request result)
    {creator : String → Option Token} (hk : KeepsOrigin creator w.database) :
    KeepsOrigin (creators token creator request result.1) result.2.database := by
  cases h with
  | failed e hd =>
    have hsame : creators token creator request (.error e) = creator := by cases request <;> rfl
    rw [hsame]
    exact hd ▸ hk
  | @read _ response hshown hpost =>
    have hsame : creators token creator request (.ok response) = creator := by
      cases request with
      | post uuid json => exact absurd rfl (hpost uuid json)
      | _ => rfl
    rw [hsame]
    exact hk
  | @created uuid json s w' huuid horigin hc hd =>
    intro s' hs' token' htoken'
    have hs : s ∈ w'.database := hd ▸ List.mem_append_right _ List.mem_cons_self
    by_cases hu : s'.uuid = uuid
    · obtain rfl := hc.uuid_inj hs hs' (huuid.trans hu.symm)
      have htoken : token = token' := by simpa [creators, hu] using htoken'
      exact htoken ▸ horigin
    · have hold : s' ∈ w.database := by
        rw [hd] at hs'
        refine (List.mem_append.mp hs').resolve_right ?_
        intro hnew
        exact hu (List.mem_singleton.mp hnew ▸ huuid)
      exact hk s' hold token' (by simpa [creators, hu] using htoken')
  | @updated uuid json order s t w' hs howns hsame hc hd =>
    have hformer : ∀ s' ∈ w'.database, ∃ u ∈ w.database, SameOwnership u s' := by
      intro s' hs'
      rw [hd] at hs'
      rcases (mem_liveAfter_updated order).mp hs' with ⟨rfl, -⟩ | ⟨hold, -⟩
      · exact ⟨s, hs, hsame⟩
      · exact ⟨s', hold, rfl, rfl, rfl, rfl, rfl⟩
    exact hk.of_former hformer
  | @deleted uuid s w' hs howns hc hd =>
    rw [hd]
    exact hk.deleted s

end Step

def UserRequest.target : UserRequest → Option String
  | .list _ | .post _ _ => none
  | .get uuid | .put uuid _ _ | .delete uuid => some uuid

/-- The request brings a body that the schema rejects with `e`. -/
def UserRequest.Rejected (mallow : Mallow) (e : LoadError) : UserRequest → Prop
  | .post _ json | .put _ json _ => mallow.load (userSubscriptionSchema mallow) json = .error e
  | _ => False

/-- A request shows subscriptions of the user, leaves those of the others, and for a uuid that
is none of the user's finds nothing and changes nothing. -/
structure Confined (mallow : Mallow) (fault : Option Fault) (token : Token) (w : World)
    (request : UserRequest) (result : Except RestError Response × World) : Prop where
  shown : ∀ response, result.1 = .ok response →
    ∀ d ∈ response.shown, ∃ s ∈ result.2.database, token.Owns s ∧ d = dump s
  others : (result.2.database.filter fun s => ¬ token.Owns s) =
    w.database.filter fun s => ¬ token.Owns s
  foreign : ∀ uuid, request.target = some uuid →
    (∀ s ∈ w.database, s.uuid = uuid → ¬ token.Owns s) →
    result.2 = w ∧ (result.1 = .error (.service (.noSuchSubscription uuid)) ∨
      (∃ e, request.Rejected mallow e ∧ result.1 = .error (.load e)) ∨ fault = some .lookup)

section Run
variable {mallow : Mallow} (hm : mallow.Documented) (text : Json → Option String)
  (master : String) (fault : Option Fault) (token : Token) {w : World}

theorem lookupError_cases (uuid : String) :
    RestError.service (lookupError fault uuid) = .service (.noSuchSubscription uuid) ∨
      fault = some .lookup := by
  unfold lookupError
  split_ifs with hf
  · exact Or.inr hf
  · exact Or.inl rfl

include hm in
theorem put_foreign {uuid : String} (json : Json) (order : List String)
    (hnone : find w.database uuid [token.tenantUuid] (some token.userUuid) = none) :
    (∃ e, mallow.load (userSubscriptionSchema mallow) json = .error e ∧
        exec (UserSubscriptionResource.put mallow text master fault token uuid json order) w =
          (.error (.load e), w)) ∨
      exec (UserSubscriptionResource.put mallow text master fault token uuid json order) w =
        (.error (.service (lookupError fault uuid)), w) := by
  unfold UserSubscriptionResource.put
  cases hl : mallow.load (userSubscriptionSchema mallow) json with
  | error e =>
    left
    rw [exec_bind_of_error (exec_raising_of_error _ (exec_ofExcept _ w))]
    exact ⟨e, rfl, rfl⟩
  | ok d =>
    right
    rw [exec_bind_of_ok (exec_raising_of_ok _ (exec_ofExcept _ w))]
    obtain ⟨k, hk, -⟩ := ofDict_load hm hl text
    rw [exec_bind_of_ok (exec_keywords hk), exec_bind_of_error (exec_raising_of_error _
      (exec_update_not_found master k order (Or.inl hnone)))]

include hm in
theorem serve_foreign {request : UserRequest} {uuid : String} (ht : request.target = some uuid)
    (h : ∀ s ∈ w.database, s.uuid = uuid → ¬ token.Owns s) :
    ∃ e, exec (request.serve mallow text master fault token) w = (.error e, w) ∧
      (e = .service (.noSuchSubscription uuid) ∨
        (∃ e', request.Rejected mallow e' ∧ e = .load e') ∨ fault = some .lookup) := by
  have hnone := find_eq_none_of_foreign h
  have hlookup := (lookupError_cases fault uuid).imp_right
    (Or.inr : _ → (∃ e', request.Rejected mallow e' ∧
      RestError.service (lookupError fault uuid) = .load e') ∨ _)
  cases request with
  | list args => cases ht
  | post uuid' json => cases ht
  | get uuid' =>
    cases ht
    exact ⟨_, exec_bind_of_error (exec_raising_of_error _ (exec_get_not_found (Or.inl hnone))) _,
      hlookup⟩
  | delete uuid' =>
    cases ht
    exact ⟨_, exec_bind_of_error (exec_raising_of_error _
      (exec_delete_not_found master (Or.inl hnone))) _, hlookup⟩
  | put uuid' json order =>
    cases ht
    rcases put_foreign hm text master fault token json order hnone with ⟨e, hl, he⟩ | he
    · exact ⟨_, he, Or.inr (Or.inl ⟨e, hl, rfl⟩)⟩
    · exact ⟨_, he, hlookup⟩

include hm in
theorem confined_serve (hw : Constraints w.database) (request : UserRequest) :
    Confined mallow fault token w request
      (exec (request.serve mallow text master fault token) w) := by
  have hserved := served hm text master fault token hw request
  constructor
  · intro response hr
    exact hserved.shown hr
  · exact hserved.others hw
  · intro uuid ht hforeign
    obtain ⟨e, he, hcases⟩ := serve_foreign hm text master fault token ht hforeign
    rw [he]
    refine ⟨rfl, ?_⟩
    rcases hcases with rfl | ⟨e', hrejected, rfl⟩ | hf
    · exact Or.inl rfl
    · exact Or.inr (Or.inl ⟨e', hrejected, rfl⟩)
    · exact Or.inr (Or.inr hf)

end Run

theorem deletion_invariant (master : String) (fault : Option Fault) {w : World} (uuid : String)
    (tenants : List String) (user : Option String) {creator : String → Option Token}
    (h : Constraints w.database ∧ KeepsOrigin creator w.database) :
    let w' := (exec (SubscriptionService.delete master fault uuid tenants user) w).2
    Constraints w'.database ∧ KeepsOrigin creator w'.database := by
  rcases exec_delete_cases master fault w uuid tenants user with
    ⟨e, w', he, hd⟩ | ⟨s, w', hok, ha, hd⟩
  · simp only [he, hd]
    exact h
  · simp only [hok, hd]
    exact ⟨ServiceCall.constraints_announced h.1 ha, h.2.deleted s⟩

/-- The endpoints, with the token that created each subscription. -/
structure UserApi where
  world : World
  creator : String → Option Token

inductive ApiAction
  | request (token : Token) (fault : Option Fault) (request : UserRequest)
  | deletion (fault : Option Fault) (uuid : String) (ownerTenantUuids : List String)
      (ownerUserUuid : Option String)

namespace UserApi

section Step
variable (mallow : Mallow) (text : Json → Option String) (master : String)

def step (σ : UserApi) : ApiAction → UserApi
  | .request token fault request =>
    let result := exec (request.serve mallow text master fault token) σ.world
    ⟨result.2, creators token σ.creator request result.1⟩
  | .deletion fault uuid tenants user =>
    ⟨(exec (SubscriptionService.delete master fault uuid tenants user) σ.world).2, σ.creator⟩

/-- The next step is confined, when it is a request. -/
def StepConfined (σ : UserApi) : ApiAction → Prop
  | .request token fault request => Confined mallow fault token σ.world request
      (exec (request.serve mallow text master fault token) σ.world)
  | .deletion .. => True

variable {mallow} in
theorem step_invariant (hm : mallow.Documented) {σ : UserApi} (a : ApiAction)
    (h : Constraints σ.world.database ∧ KeepsOrigin σ.creator σ.world.database) :
    Constraints (σ.step mallow text master a).world.database ∧
      KeepsOrigin (σ.step mallow text master a).creator
        (σ.step mallow text master a).world.database := by
  cases a with
  | request token fault request =>
    have hserved := served hm text master fault token h.1 request
    exact ⟨hserved.constraints h.1, hserved.keepsOrigin h.2⟩
  | deletion fault uuid tenants user =>
    exact deletion_invariant master fault uuid tenants user h

end Step

end UserApi

/-- Users stay among their own subscriptions, and what they create keeps its owner and the
user whose events it receives. -/
theorem user_confinement {mallow : Mallow} (hm : mallow.Documented) (text : Json → Option String)
    (master : String) {w : World} (hw : Constraints w.database) (actions : List ApiAction) :
    Run.Along (UserApi.step mallow text master) (UserApi.StepConfined mallow text master)
        ⟨w, fun _ => none⟩ actions ∧
      Run.Always (UserApi.step mallow text master)
        (fun σ => KeepsOrigin σ.creator σ.world.database) ⟨w, fun _ => none⟩ actions := by
  have hstart : Constraints w.database ∧ KeepsOrigin (fun _ => none) w.database :=
    ⟨hw, fun _ _ _ h => by cases h⟩
  have hstep := fun σ a => UserApi.step_invariant text master hm (σ := σ) a
  constructor
  · refine Run.along_of_invariant hstep ?_ hstart actions
    intro σ a hσ
    cases a with
    | request token fault request => exact confined_serve hm text master fault token hσ.1 request
    | deletion fault uuid tenants user => trivial
  · exact Run.always_of_invariant hstep (fun _ hσ => hσ.2) hstart actions

theorem alice_userUuid_ne : "2f9ac4a6-1f6b-4a1e-8d0c-6f2b1f0c7d11" ≠ "" := by decide

/-- Two users of one tenant. -/
def alice : Token where
  tenantUuid := "6c6d3b6c-58cb-4f5c-9a0e-0f1f0c1f7a03"
  userUuid := "2f9ac4a6-1f6b-4a1e-8d0c-6f2b1f0c7d11"
  xivoUuid := "613747fd-f7e7-4329-b115-3869e44a05d2"
  userUuid_ne := alice_userUuid_ne

def bob : Token where
  tenantUuid := "6c6d3b6c-58cb-4f5c-9a0e-0f1f0c1f7a03"
  userUuid := "9e2a7d0b-55d4-4a0a-9c39-0b7d4f6a2b54"
  xivoUuid := "613747fd-f7e7-4329-b115-3869e44a05d2"
  userUuid_ne := by decide

/-- A body that names protected columns. -/
def forgedBody : Json :=
  .obj [("name", .str "calls"), ("service", .str "mobile"),
    ("events", .arr [.str "call_created"]), ("config", .obj []),
    ("owner_user_uuid", .str bob.userUuid), ("events_user_uuid", .str bob.userUuid)]

def forgedActions : List ApiAction :=
  [.request alice none (.post "8b6d3f5e-0d3f-4f0e-9a53-3b8b1d3f5e01" forgedBody),
    .request bob none (.get "8b6d3f5e-0d3f-4f0e-9a53-3b8b1d3f5e01"),
    .request alice none (.put "8b6d3f5e-0d3f-4f0e-9a53-3b8b1d3f5e01" forgedBody ["call_created"])]

theorem user_confinement_forged :
    let w : World := ⟨[], .init "headers", [], []⟩
    let step := UserApi.step Mallow.plain Json.asString "master"
    (Run.Along step (UserApi.StepConfined Mallow.plain Json.asString "master")
        ⟨w, fun _ => none⟩ forgedActions ∧
      Run.Always step (fun σ => KeepsOrigin σ.creator σ.world.database) ⟨w, fun _ => none⟩
        forgedActions) ∧
      (forgedActions.foldl step ⟨w, fun _ => none⟩).world.database.map (·.eventsUserUuid) =
        [some alice.userUuid] := by
  intro w step
  exact ⟨user_confinement Mallow.documented_plain Json.asString "master" (by decide) forgedActions,
    by decide⟩

/-- The body is read before the subscription is looked up. -/
theorem put_foreign_rejected :
    let s := { Subscription.blank "8b6d3f5e-0d3f-4f0e-9a53-3b8b1d3f5e01" alice.tenantUuid with
      ownerUserUuid := some alice.userUuid }
    let w : World := ⟨[s], .init "headers", [], []⟩
    (∀ t ∈ w.database, t.uuid = s.uuid → ¬ bob.Owns t) ∧
      (exec (UserRequest.serve Mallow.plain Json.asString "master" none bob
        (.put s.uuid (.obj []) [])) w).1 ≠ .error (.service (.noSuchSubscription s.uuid)) := by
  intro s w
  exact ⟨by decide, nofun⟩

end WazoWebhookd

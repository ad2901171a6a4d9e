import WazoWebhookd.Subscription.FreshRegistration
import WazoWebhookd.Subscription.Service

/-! What each call of the service does, by the step that fails: the database is rolled back,
what was published stays published. -/
namespace WazoWebhookd
open Failing SubscriptionService

inductive ServiceCall
  | create (uuid : String) (newSubscription : SchemaKwargs)
  | update (uuid : String) (newSubscription : SchemaKwargs) (order : List String)
      (ownerTenantUuids : List String) (ownerUserUuid : Option String)
  | delete (uuid : String) (ownerTenantUuids : List String) (ownerUserUuid : Option String)

def Notification.lifecycleEvent : Notification → LifecycleEvent
  | .created s => SubscriptionNotifier.created s
  | .updated s _ => SubscriptionNotifier.updated s
  | .deleted s => SubscriptionNotifier.deleted s

namespace ServiceCall

def run (masterTenantUuid : String) (fault : Option Fault) : ServiceCall → ServiceM Unit
  | .create uuid new => do
    let _ ← SubscriptionService.create masterTenantUuid fault uuid new
    pure ()
  | .update uuid new order tenants user => do
    let _ ← SubscriptionService.update masterTenantUuid fault uuid new order tenants user
    pure ()
  | .delete uuid tenants user => do
    let _ ← SubscriptionService.delete masterTenantUuid fault uuid tenants user
    pure ()

/-- The notification of a call none of whose steps fails, or `none` when the request itself
cannot be met: nothing found, or a constraint violated. -/
def announced (database : List Subscription) : ServiceCall → Option Notification
  | .create uuid new =>
    new.ownerTenantUuid.bind fun tenantUuid =>
      let s := (Subscription.blank uuid tenantUuid).fromSchema new
      if Constraints (database ++ [s]) then some (.created s) else none
  | .update uuid new order tenants user =>
    (find database uuid tenants user).bind fun s =>
      let s' := s.clearRelations.fromSchema new
      if Constraints (liveAfter database (.updated s' order)) then some (.updated s' order)
      else none
  | .delete uuid tenants user => (find database uuid tenants user).map .deleted

/-- The failing step comes before the publication. -/
def EarlyFault (fault : Option Fault) : ServiceCall → Prop
  | .create .. => fault = some .flush
  | .update .. => fault = some .lookup ∨ fault = some .firstFlush ∨ fault = some .flush
  | .delete .. => fault = some .lookup

/-- The order given with an update iterates over the old and the new events. -/
def Iterates (database : List Subscription) : ServiceCall → Prop
  | .update uuid new order tenants user =>
    ∀ s, find database uuid tenants user = some s → IsIteration order new.events s.events
  | _ => True

theorem announced_create {database : List Subscription} {uuid : String} {new : SchemaKwargs}
    {n : Notification} (h : (ServiceCall.create uuid new).announced database = some n) :
    ∃ tenantUuid, new.ownerTenantUuid = some tenantUuid ∧
      n = .created ((Subscription.blank uuid tenantUuid).fromSchema new) ∧
      Constraints (liveAfter database n) := by
  obtain ⟨tenantUuid, ht, hn⟩ := Option.bind_eq_some_iff.mp h
  dsimp only at hn
  split_ifs at hn with hc
  cases hn
  exact ⟨tenantUuid, ht, rfl, hc⟩

theorem announced_update {database : List Subscription} {uuid : String} {new : SchemaKwargs}
    {order tenants : List String} {user : Option String} {n : Notification}
    (h : (ServiceCall.update uuid new order tenants user).announced database = some n) :
    ∃ s, find database uuid tenants user = some s ∧
      n = .updated (s.clearRelations.fromSchema new) order ∧
      Constraints (liveAfter database n) := by
  obtain ⟨s, hs, hn⟩ := Option.bind_eq_some_iff.mp h
  dsimp only at hn
  split_ifs at hn with hc
  cases hn
  exact ⟨s, hs, rfl, hc⟩

theorem announced_delete {database : List Subscription} {uuid : String} {tenants : List String}
    {user : Option String} {n : Notification}
    (h : (ServiceCall.delete uuid tenants user).announced database = some n) :
    ∃ s, find database uuid tenants user = some s ∧ n = .deleted s := by
  obtain ⟨s, hs, hn⟩ := Option.map_eq_some_iff.mp h
  exact ⟨s, hs, hn.symm⟩

end ServiceCall

section Exec
variable {master : String} {fault : Option Fault} {w : World}

theorem exec_failAt (f : Fault) :
    exec (failAt fault f) w =
      if fault = some f then (.error (.fault f), w) else (.ok (), w) := by
  unfold failAt
  split_ifs <;> rfl

theorem exec_flush (f : Fault) :
    exec (flush fault f) w =
      if fault = some f then (.error (.fault f), w)
      else if Constraints w.database then (.ok (), w) else (.error .integrityError, w) := by
  unfold flush
  rw [exec_bind, exec_failAt]
  split_ifs with hf hc
  · rfl
  · simp only [exec_bind, exec_get, if_pos hc, exec_pure]
  · simp only [exec_bind, exec_get, if_neg hc, exec_throw]

theorem exec_flush_error {f : Fault} (h : fault = some f ∨ ¬ Constraints w.database) :
    ∃ e, exec (flush fault f) w = (.error e, w) := by
  rw [exec_flush]
  split_ifs with hf hc
  · exact ⟨_, rfl⟩
  · exact absurd hc (h.resolve_left hf)
  · exact ⟨_, rfl⟩

theorem exec_flush_ok {f : Fault} (h : ¬ (fault = some f ∨ ¬ Constraints w.database)) :
    exec (flush fault f) w = (.ok (), w) := by
  obtain ⟨hf, hc⟩ := not_or.mp h
  rw [exec_flush, if_neg hf, if_pos (not_not.mp hc)]

theorem exec_get_ (uuid : String) (tenants : List String) (user : Option String) :
    exec (get_ fault uuid tenants user) w =
      if fault = some .lookup then (.error (.fault .lookup), w)
      else match find w.database uuid tenants user with
        | none => (.error (.noSuchSubscription uuid), w)
        | some s => (.ok s, w) := by
  unfold get_
  rw [exec_bind, exec_failAt]
  split_ifs
  · rfl
  · simp only [exec_bind, exec_get]
    cases find w.database uuid tenants user <;> rfl

theorem exec_list (tenants : List String) (ownerUser eventsUser : Option String)
    (searchMetadata : SearchMetadata) :
    exec (SubscriptionService.list fault tenants ownerUser eventsUser searchMetadata) w =
      if fault = some .lookup then (.error (.fault .lookup), w)
      else (.ok (w.database.filter fun s => Visible tenants ownerUser s ∧
        ((truthy eventsUser).isSome → s.eventsUserUuid = truthy eventsUser) ∧
        (searchMetadata ≠ ∅ → MatchesMetadata searchMetadata s)), w) := by
  unfold SubscriptionService.list
  rw [exec_bind, exec_failAt]
  split_ifs <;> rfl

theorem exec_publish (n : Notification) :
    exec (publish master n) w =
      match w.handler.handle master n with
      | .ok h => (.ok (), { w with handler := h, pubsubLog := w.pubsubLog ++ [n] })
      | .error _ => (.error .keyError, { w with pubsubLog := w.pubsubLog ++ [n] }) := by
  unfold publish
  simp only [exec_bind, exec_modify, exec_get]
  cases w.handler.handle master n with
  | ok h => rfl
  | error e => rfl

theorem exec_store (s : Subscription) :
    exec (store s) w = (.ok (),
      { w with database := w.database.map fun t => if t.uuid = s.uuid then s else t }) := rfl

theorem exec_notify (event : LifecycleEvent) :
    exec (notify fault event) w =
      if fault = some .notifier then (.error (.fault .notifier), w)
      else (.ok (), { w with busLog := w.busLog ++ [event] }) := by
  unfold notify
  rw [exec_bind, exec_failAt]
  split_ifs <;> rfl

theorem exec_rwSession_undone {α : Type} {body : ServiceM α} {e : ServiceError}
    (database : List Subscription)
    (h : exec body w = (.error e, { w with database := database })) :
    exec (rwSession fault body) w = (.error e, w) := by
  unfold rwSession
  rw [exec_session_of_error h]

theorem exec_rwSession_of_ok (fault : Option Fault) {α : Type} {body : ServiceM α} {a : α}
    {w' : World} (h : exec body w = (.ok a, w')) :
    exec (rwSession fault body) w =
      if fault = some .commit then
        (.error (.fault .commit), { w' with database := w.database })
      else (.ok a, w') := by
  unfold rwSession
  rw [exec_session_of_ok h, exec_failAt]
  split_ifs <;> rfl

/-- What a session that publishes `n`, notifies and returns `a` comes to. -/
def outcome {α : Type} (master : String) (fault : Option Fault) (w : World) (n : Notification)
    (a : α) : Except ServiceError α × World :=
  match w.handler.handle master n with
  | .error _ => (.error .keyError, { w with pubsubLog := w.pubsubLog ++ [n] })
  | .ok h =>
    if fault = some .notifier then
      (.error (.fault .notifier), { w with handler := h, pubsubLog := w.pubsubLog ++ [n] })
    else if fault = some .commit then
      (.error (.fault .commit),
        ⟨w.database, h, w.pubsubLog ++ [n], w.busLog ++ [n.lifecycleEvent]⟩)
    else (.ok a, ⟨liveAfter w.database n, h, w.pubsubLog ++ [n], w.busLog ++ [n.lifecycleEvent]⟩)

theorem exec_rwSession_announced {α : Type} {body : ServiceM α} {n : Notification} {a : α}
    (hb : exec body w = exec (do publish master n; notify fault n.lifecycleEvent; pure a)
      { w with database := liveAfter w.database n }) :
    exec (rwSession fault body) w = outcome master fault w n a := by
  rw [exec_bind, exec_publish] at hb
  unfold outcome
  cases hh : w.handler.handle master n with
  | error e =>
    rw [hh] at hb
    exact exec_session_of_error hb
  | ok h =>
    rw [hh] at hb
    dsimp only at hb ⊢
    rw [exec_bind, exec_notify] at hb
    split_ifs with hn hc
    · rw [if_pos hn] at hb
      exact exec_session_of_error hb
    · rw [if_neg hn] at hb
      rw [exec_rwSession_of_ok fault hb, if_pos hc]
    · rw [if_neg hn] at hb
      rw [exec_rwSession_of_ok fault hb, if_neg hc]

theorem exec_discard_of_error {α : Type} {x : ServiceM α} {e : ServiceError} {w' : World}
    (h : exec x w = (.error e, w')) :
    exec (do let _ ← x; pure () : ServiceM Unit) w = (.error e, w') :=
  exec_bind_of_error h _

theorem exec_discard_outcome {α : Type} {x : ServiceM α} {n : Notification} {a : α}
    (h : exec x w = outcome master fault w n a) :
    exec (do let _ ← x; pure () : ServiceM Unit) w = outcome master fault w n () := by
  rw [exec_bind, h]
  unfold outcome
  cases w.handler.handle master n with
  | error e => rfl
  | ok h =>
    dsimp only
    split_ifs <;> rfl

variable (master) in
theorem exec_create_early {uuid : String} {new : SchemaKwargs}
    (h : (ServiceCall.create uuid new).announced w.database = none ∨ fault = some .flush) :
    ∃ e, exec (create master fault uuid new) w = (.error e, w) := by
  unfold create
  cases ht : new.ownerTenantUuid with
  | none =>
    have hbody : ∃ e, exec (do failAt fault .flush; throw .integrityError : ServiceM Subscription)
        w = (.error e, w) := by
      rw [exec_bind, exec_failAt]
      split_ifs
      · exact ⟨_, rfl⟩
      · exact ⟨_, rfl⟩
    obtain ⟨e, he⟩ := hbody
    exact ⟨e, exec_rwSession_undone w.database he⟩
  | some tenantUuid =>
    set s := (Subscription.blank uuid tenantUuid).fromSchema new with hs
    set w₁ : World := { w with database := w.database ++ [s] } with hw₁
    have hflush : fault = some .flush ∨ ¬ Constraints w₁.database := by
      refine h.symm.imp id fun hnone hc => ?_
      simp [ServiceCall.announced, ht, ← hs, hw₁ ▸ hc] at hnone
    obtain ⟨e, he⟩ := exec_flush_error hflush
    refine ⟨e, exec_rwSession_undone w₁.database
      ((exec_bind_of_ok (exec_modify _ w) _).trans ?_)⟩
    exact exec_bind_of_error he _

variable (master) in
theorem exec_create_announced {uuid : String} {new : SchemaKwargs} {n : Notification}
    (ha : (ServiceCall.create uuid new).announced w.database = some n)
    (hf : fault ≠ some .flush) :
    ∃ s, n = .created s ∧ exec (create master fault uuid new) w = outcome master fault w n s := by
  obtain ⟨tenantUuid, ht, rfl, hc⟩ := ServiceCall.announced_create ha
  set s := (Subscription.blank uuid tenantUuid).fromSchema new with hs
  refine ⟨s, rfl, ?_⟩
  set w₁ : World := { w with database := w.database ++ [s] } with hw₁
  have hflush : exec (flush fault .flush) w₁ = (.ok (), w₁) :=
    exec_flush_ok fun h => h.elim hf fun hnot => hnot hc
  unfold create
  rw [ht]
  refine exec_rwSession_announced ?_
  rw [exec_bind_of_ok (exec_modify _ w), exec_bind_of_ok hflush]
  rfl

section NotFound
variable {uuid : String} {tenants : List String} {user : Option String}

def lookupError (fault : Option Fault) (uuid : String) : ServiceError :=
  if fault = some .lookup then .fault .lookup else .noSuchSubscription uuid

theorem exec_get_not_found (h : find w.database uuid tenants user = none ∨ fault = some .lookup) :
    exec (get_ fault uuid tenants user) w = (.error (lookupError fault uuid), w) := by
  rw [exec_get_, lookupError]
  split_ifs with hl
  · rfl
  · rw [h.resolve_right hl]

variable (master) in
theorem exec_update_not_found (new : SchemaKwargs) (order : List String)
    (h : find w.database uuid tenants user = none ∨ fault = some .lookup) :
    exec (update master fault uuid new order tenants user) w =
      (.error (lookupError fault uuid), w) :=
  exec_rwSession_undone w.database (exec_bind_of_error (exec_get_not_found h) _)

variable (master) in
theorem exec_delete_not_found
    (h : find w.database uuid tenants user = none ∨ fault = some .lookup) :
    exec (delete master fault uuid tenants user) w = (.error (lookupError fault uuid), w) :=
  exec_rwSession_undone w.database (exec_bind_of_error (exec_get_not_found h) _)

end NotFound

theorem exec_delete_announced {uuid : String} {tenants : List String} {user : Option String}
    {s : Subscription} (hs : find w.database uuid tenants user = some s)
    (hf : fault ≠ some .lookup) :
    exec (delete master fault uuid tenants user) w =
      outcome master fault w (.deleted s) () := by
  have hget : exec (get_ fault uuid tenants user) w = (.ok s, w) := by
    rw [exec_get_, if_neg hf, hs]
  refine exec_rwSession_announced ?_
  rw [exec_bind_of_ok hget, exec_bind_of_ok (exec_modify _ w)]
  simp only [bind_pure_unit]
  rfl

theorem map_store_twice (database : List Subscription) (s s' : Subscription)
    (h : s.uuid = s'.uuid) (order : List String) :
    ((database.map fun t => if t.uuid = s.uuid then s else t).map fun t =>
      if t.uuid = s'.uuid then s' else t) = liveAfter database (.updated s' order) := by
  rw [List.map_map, liveAfter]
  refine List.map_congr_left fun t _ => ?_
  by_cases ht : t.uuid = s.uuid
  · simp [ht, h]
  · simp [ht, h ▸ ht]

theorem constraints_clear {database : List Subscription} (h : Constraints database)
    (s : Subscription) :
    Constraints (database.map fun t => if t.uuid = s.clearRelations.uuid then s.clearRelations
      else t) := by
  constructor
  · have hmap : (database.map fun t => if t.uuid = s.clearRelations.uuid then s.clearRelations
        else t).map (·.uuid) = database.map (·.uuid) := by
      rw [List.map_map]
      exact List.map_congr_left fun t _ => uuid_updated s.clearRelations t
    rw [hmap]
    exact h.1
  · intro t ht
    obtain ⟨u, hu, rfl⟩ := List.mem_map.mp ht
    split_ifs
    · exact ⟨List.nodup_nil, List.nodup_nil⟩
    · exact h.2 u hu

section Update
variable {uuid : String} {new : SchemaKwargs} {order tenants : List String}
  {user : Option String}

def clearedWorld (w : World) (s : Subscription) : World :=
  { w with database := w.database.map fun t =>
      if t.uuid = s.clearRelations.uuid then s.clearRelations else t }

def updatedWorld (w : World) (s' : Subscription) (order : List String) : World :=
  { w with database := liveAfter w.database (.updated s' order) }

theorem exec_store_cleared (s : Subscription) :
    exec (store s.clearRelations) w = (.ok (), clearedWorld w s) := rfl

theorem exec_store_updated (s : Subscription) (new : SchemaKwargs) (order : List String) :
    exec (store (s.clearRelations.fromSchema new)) (clearedWorld w s) =
      (.ok (), updatedWorld w (s.clearRelations.fromSchema new) order) := by
  rw [exec_store, updatedWorld, ← map_store_twice w.database s.clearRelations
    (s.clearRelations.fromSchema new) rfl order]
  rfl

variable (master) in
theorem exec_update_early
    (h : (ServiceCall.update uuid new order tenants user).announced w.database = none ∨
      (ServiceCall.update uuid new order tenants user).EarlyFault fault) :
    ∃ e, exec (update master fault uuid new order tenants user) w = (.error e, w) := by
  by_cases hl : fault = some .lookup
  · exact ⟨_, exec_update_not_found master new order (Or.inr hl)⟩
  cases hs : find w.database uuid tenants user with
  | none => exact ⟨_, exec_update_not_found master new order (Or.inl hs)⟩
  | some s =>
    have hget : exec (get_ fault uuid tenants user) w = (.ok s, w) := by
      rw [exec_get_, if_neg hl, hs]
    by_cases hfirst : fault = some .firstFlush ∨ ¬ Constraints (clearedWorld w s).database
    · obtain ⟨e, he⟩ := exec_flush_error hfirst
      refine ⟨e, exec_rwSession_undone (clearedWorld w s).database
        ((exec_bind_of_ok hget _).trans ?_)⟩
      rw [exec_bind_of_ok (exec_store_cleared s)]
      exact exec_bind_of_error he _
    · set s' := s.clearRelations.fromSchema new with hs'
      have hsecond : fault = some .flush ∨ ¬ Constraints (updatedWorld w s' order).database := by
        rcases h with hnone | hearly
        · right
          intro hc
          have hc' : Constraints (liveAfter w.database (.updated s' order)) := hc
          simp [ServiceCall.announced, hs, ← hs', hc'] at hnone
        · exact Or.inl ((hearly.resolve_left hl).resolve_left (not_or.mp hfirst).1)
      obtain ⟨e, he⟩ := exec_flush_error hsecond
      refine ⟨e, exec_rwSession_undone (updatedWorld w s' order).database
        ((exec_bind_of_ok hget _).trans ?_)⟩
      rw [exec_bind_of_ok (exec_store_cleared s), exec_bind_of_ok (exec_flush_ok hfirst),
        exec_bind_of_ok (exec_store_updated s new order)]
      exact exec_bind_of_error he _

variable (master) in
theorem exec_update_announced (hw : Constraints w.database) {n : Notification}
    (ha : (ServiceCall.update uuid new order tenants user).announced w.database = some n)
    (hf : ¬ (ServiceCall.update uuid new order tenants user).EarlyFault fault) :
    ∃ s', n = .updated s' order ∧
      exec (update master fault uuid new order tenants user) w = outcome master fault w n s' := by
  obtain ⟨s, hs, rfl, hc⟩ := ServiceCall.announced_update ha
  obtain ⟨hl, hf'⟩ := not_or.mp hf
  obtain ⟨hf1, hf2⟩ := not_or.mp hf'
  set s' := s.clearRelations.fromSchema new with hs'
  refine ⟨s', rfl, ?_⟩
  have hget : exec (get_ fault uuid tenants user) w = (.ok s, w) := by
    rw [exec_get_, if_neg hl, hs]
  have hfirst : exec (flush fault .firstFlush) (clearedWorld w s) = (.ok (), clearedWorld w s) :=
    exec_flush_ok fun h => h.elim hf1 fun hnot => hnot (constraints_clear hw s)
  have hsecond : exec (flush fault .flush) (updatedWorld w s' order) =
      (.ok (), updatedWorld w s' order) :=
    exec_flush_ok fun h => h.elim hf2 fun hnot => hnot hc
  refine exec_rwSession_announced ?_
  rw [exec_bind_of_ok hget, exec_bind_of_ok (exec_store_cleared s), exec_bind_of_ok hfirst,
    exec_bind_of_ok (exec_store_updated s new order), exec_bind_of_ok hsecond]
  rfl

end Update

namespace ServiceCall
variable {call : ServiceCall}

variable (master) in
theorem exec_run_early (h : call.announced w.database = none ∨ call.EarlyFault fault) :
    ∃ e, exec (call.run master fault) w = (.error e, w) := by
  cases call with
  | create uuid new =>
    obtain ⟨e, he⟩ := exec_create_early master h
    exact ⟨e, exec_discard_of_error he⟩
  | update uuid new order tenants user =>
    obtain ⟨e, he⟩ := exec_update_early master h
    exact ⟨e, exec_discard_of_error he⟩
  | delete uuid tenants user =>
    have hfind : find w.database uuid tenants user = none ∨ fault = some .lookup :=
      h.imp Option.map_eq_none_iff.mp id
    exact ⟨_, exec_discard_of_error (exec_delete_not_found master hfind)⟩

theorem exec_run_announced (hw : Constraints w.database) {n : Notification}
    (ha : call.announced w.database = some n) (hf : ¬ call.EarlyFault fault) :
    exec (call.run master fault) w = outcome master fault w n () := by
  cases call with
  | create uuid new =>
    obtain ⟨s, -, hs⟩ := exec_create_announced master ha hf
    exact exec_discard_outcome hs
  | update uuid new order tenants user =>
    obtain ⟨s', -, hs⟩ := exec_update_announced master hw ha hf
    exact exec_discard_outcome hs
  | delete uuid tenants user =>
    obtain ⟨s, hs, rfl⟩ := announced_delete ha
    exact exec_discard_outcome (exec_delete_announced hs hf)

end ServiceCall

section Effects
variable {α : Type} {uuid : String} {new : SchemaKwargs} {order tenants : List String}
  {user : Option String}

theorem outcome_cases (master : String) (fault : Option Fault) (w : World) (n : Notification)
    (a : α) :
    (∃ e w', outcome master fault w n a = (.error e, w') ∧ w'.database = w.database) ∨
      ∃ w', outcome master fault w n a = (.ok a, w') ∧
        w'.database = liveAfter w.database n := by
  unfold outcome
  cases w.handler.handle master n with
  | error e => exact Or.inl ⟨_, _, rfl, rfl⟩
  | ok h =>
    dsimp only
    split_ifs
    · exact Or.inl ⟨_, _, rfl, rfl⟩
    · exact Or.inl ⟨_, _, rfl, rfl⟩
    · exact Or.inr ⟨_, rfl, rfl⟩

variable (master fault w) in
theorem exec_create_cases (uuid : String) (new : SchemaKwargs) :
    (∃ e w', exec (create master fault uuid new) w = (.error e, w') ∧
        w'.database = w.database) ∨
      ∃ s w', exec (create master fault uuid new) w = (.ok s, w') ∧
        (ServiceCall.create uuid new).announced w.database = some (.created s) ∧
        w'.database = liveAfter w.database (.created s) := by
  by_cases hearly : (ServiceCall.create uuid new).announced w.database = none ∨
      fault = some .flush
  · obtain ⟨e, he⟩ := exec_create_early master hearly
    exact Or.inl ⟨e, w, he, rfl⟩
  · obtain ⟨hnone, hf⟩ := not_or.mp hearly
    obtain ⟨n, ha⟩ := Option.ne_none_iff_exists'.mp hnone
    obtain ⟨s, rfl, hs⟩ := exec_create_announced master ha hf
    rw [hs]
    rcases outcome_cases master fault w (.created s) s with ⟨e, w', he, hd⟩ | ⟨w', hok, hd⟩
    · exact Or.inl ⟨e, w', he, hd⟩
    · exact Or.inr ⟨s, w', hok, ha, hd⟩

variable (master fault) in
theorem exec_update_cases (hw : Constraints w.database) (uuid : String) (new : SchemaKwargs)
    (order tenants : List String) (user : Option String) :
    (∃ e w', exec (update master fault uuid new order tenants user) w = (.error e, w') ∧
        w'.database = w.database) ∨
      ∃ s w', exec (update master fault uuid new order tenants user) w = (.ok s, w') ∧
        (ServiceCall.update uuid new order tenants user).announced w.database =
          some (.updated s order) ∧
        w'.database = liveAfter w.database (.updated s order) := by
  by_cases hearly : (ServiceCall.update uuid new order tenants user).announced w.database = none ∨
      (ServiceCall.update uuid new order tenants user).EarlyFault fault
  · obtain ⟨e, he⟩ := exec_update_early master hearly
    exact Or.inl ⟨e, w, he, rfl⟩
  · obtain ⟨hnone, hf⟩ := not_or.mp hearly
    obtain ⟨n, ha⟩ := Option.ne_none_iff_exists'.mp hnone
    obtain ⟨s, rfl, hs⟩ := exec_update_announced master hw ha hf
    rw [hs]
    rcases outcome_cases master fault w (.updated s order) s with ⟨e, w', he, hd⟩ | ⟨w', hok, hd⟩
    · exact Or.inl ⟨e, w', he, hd⟩
    · exact Or.inr ⟨s, w', hok, ha, hd⟩

variable (master fault w) in
theorem exec_delete_cases (uuid : String) (tenants : List String) (user : Option String) :
    (∃ e w', exec (delete master fault uuid tenants user) w = (.error e, w') ∧
        w'.database = w.database) ∨
      ∃ s w', exec (delete master fault uuid tenants user) w = (.ok (), w') ∧
        (ServiceCall.delete uuid tenants user).announced w.database = some (.deleted s) ∧
        w'.database = liveAfter w.database (.deleted s) := by
  by_cases hearly : find w.database uuid tenants user = none ∨ fault = some .lookup
  · exact Or.inl ⟨_, w, exec_delete_not_found master hearly, rfl⟩
  · obtain ⟨hnone, hf⟩ := not_or.mp hearly
    obtain ⟨s, hs⟩ := Option.ne_none_iff_exists'.mp hnone
    have ha : (ServiceCall.delete uuid tenants user).announced w.database =
        some (.deleted s) := by
      rw [ServiceCall.announced, hs]
      rfl
    rw [exec_delete_announced hs hf]
    rcases outcome_cases master fault w (.deleted s) () with ⟨e, w', he, hd⟩ | ⟨w', hok, hd⟩
    · exact Or.inl ⟨e, w', he, hd⟩
    · exact Or.inr ⟨s, w', hok, ha, hd⟩

end Effects

end Exec

theorem mem_of_find {database : List Subscription} {uuid : String} {tenants : List String}
    {user : Option String} {s : Subscription}
    (h : find database uuid tenants user = some s) :
    s ∈ database ∧ s.uuid = uuid ∧ Visible tenants user s := by
  have hp := List.find?_some h
  simp only [decide_eq_true_eq] at hp
  exact ⟨List.mem_of_find?_eq_some h, hp⟩

theorem find_self {database : List Subscription} (hc : Constraints database) {s : Subscription}
    (hs : s ∈ database) {tenants : List String} {user : Option String}
    (hv : Visible tenants user s) : find database s.uuid tenants user = some s := by
  have hfound : (find database s.uuid tenants user).isSome :=
    List.find?_isSome.mpr ⟨s, hs, decide_eq_true ⟨rfl, hv⟩⟩
  obtain ⟨t, ht⟩ := Option.isSome_iff_exists.mp hfound
  obtain ⟨hmem, huuid, -⟩ := mem_of_find ht
  rw [ht, hc.uuid_inj hmem hs huuid]

theorem exec_delete_present (master : String) {w : World} {uuid : String}
    (h : ∃ s ∈ w.database, s.uuid = uuid) :
    ∃ w', exec (delete master none uuid [] none) w = (.ok (), w') ∧
      w'.database = w.database.filter fun t => ¬ t.uuid = uuid := by
  obtain ⟨s, hs, huuid⟩ := h
  have hv : Visible [] none s := ⟨by simp, by simp⟩
  have hfind : (find w.database uuid [] none).isSome :=
    List.find?_isSome.mpr ⟨s, hs, decide_eq_true ⟨huuid, hv⟩⟩
  obtain ⟨t, ht⟩ := Option.isSome_iff_exists.mp hfind
  obtain ⟨-, rfl, -⟩ := mem_of_find ht
  exact ⟨_, exec_delete_announced ht nofun, rfl⟩

theorem mem_of_exec_get_ {fault : Option Fault} {w w' : World} {uuid : String}
    {tenants : List String} {user : Option String} {s : Subscription}
    (h : exec (get_ fault uuid tenants user) w = (.ok s, w')) :
    s ∈ w.database ∧ s.uuid = uuid ∧ Visible tenants user s := by
  rw [exec_get_] at h
  split_ifs at h
  · cases h
  · cases hfind : find w.database uuid tenants user with
    | none =>
      rw [hfind] at h
      cases h
    | some t =>
      rw [hfind] at h
      cases h
      exact mem_of_find hfind

theorem ServiceCall.constraints_announced {call : ServiceCall} {database : List Subscription}
    {n : Notification} (hd : Constraints database) (ha : call.announced database = some n) :
    Constraints (liveAfter database n) := by
  cases call with
  | create uuid new =>
    obtain ⟨-, -, -, hc⟩ := announced_create ha
    exact hc
  | update uuid new order tenants user =>
    obtain ⟨-, -, -, hc⟩ := announced_update ha
    exact hc
  | delete uuid tenants user =>
    obtain ⟨s, -, rfl⟩ := announced_delete ha
    refine ⟨liveAfter_uuid_nodup hd.1 (.deleted s) (by rintro s' ⟨⟩), ?_⟩
    intro t ht
    exact hd.2 t (mem_liveAfter_deleted.mp ht).1

theorem mem_of_exec_list {fault : Option Fault} {w w' : World} {tenants : List String}
    {user eventsUser : Option String} {searchMetadata : SearchMetadata}
    {subscriptions : List Subscription}
    (h : exec (SubscriptionService.list fault tenants user eventsUser searchMetadata) w =
      (.ok subscriptions, w')) :
    ∀ s ∈ subscriptions, s ∈ w.database ∧ Visible tenants user s := by
  rw [exec_list] at h
  split_ifs at h
  · cases h
  · cases h
    intro s hs
    obtain ⟨hmem, hp⟩ := List.mem_filter.mp hs
    exact ⟨hmem, (of_decide_eq_true hp).1⟩

section ReadOnly
variable (fault : Option Fault) (tenants : List String) (user : Option String)

theorem reads_list (eventsUser : Option String) (searchMetadata : SearchMetadata) :
    Reads (SubscriptionService.list fault tenants user eventsUser searchMetadata) := by
  intro w
  rw [exec_list]
  split_ifs <;> rfl

theorem reads_get (uuid : String) : Reads (SubscriptionService.get fault uuid tenants user) := by
  intro w
  unfold SubscriptionService.get
  rw [exec_get_]
  split_ifs
  · rfl
  · cases find w.database uuid tenants user <;> rfl

end ReadOnly

end WazoWebhookd

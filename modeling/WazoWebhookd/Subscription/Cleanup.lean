import WazoWebhookd.Database.SyncDb
import WazoWebhookd.Subscription.ServiceCalls

/-! The removal of subscriptions when a tenant or a user is deleted, event by event, and the
resynchronisation that makes up for the events that were missed. -/
namespace WazoWebhookd
open Failing SubscriptionService

inductive AuthEvent
  | tenantDeleted (tenantUuid : String)
  | userDeleted (userUuid : String)
  deriving DecidableEq

namespace SubscriptionService
variable (masterTenantUuid : String) (fault : Option Fault) (iteration : SetIteration)

/-- A turn of the loops below: `delete`, where `NoSuchSubscription` is passed over. -/
def deletePresent (subscriptionUuid : String) : ServiceM Unit :=
  tryCatch (delete masterTenantUuid fault subscriptionUuid [] none) fun e =>
    match e with
    | .noSuchSubscription _ => pure ()
    | e => throw e

def removeUser (userUuid : String) : ServiceM Unit := do
  let owned ← SubscriptionService.list fault [] (some userUuid) none ∅
  let listened ← SubscriptionService.list fault [] none (some userUuid) ∅
  let subscriptionUuids := ((owned ++ listened).map (·.uuid)).toFinset
  (iteration.order subscriptionUuids).forM (deletePresent masterTenantUuid fault)

def removeTenant (tenantUuid : String) : ServiceM Unit := do
  let subscriptions ← SubscriptionService.list fault [tenantUuid] none none ∅
  subscriptions.forM fun subscription => deletePresent masterTenantUuid fault subscription.uuid

/-- `_on_tenant_deleted_event` and `_on_user_deleted_event`. -/
def onDeletedEvent : AuthEvent → ServiceM Unit
  | .tenantDeleted tenantUuid => removeTenant masterTenantUuid fault tenantUuid
  | .userDeleted userUuid => removeUser masterTenantUuid fault iteration userUuid

end SubscriptionService

section Remove
variable (master : String) (iteration : SetIteration) {w : World}

theorem exec_deletePresent_absent {uuid : String} (habsent : ∀ t ∈ w.database, ¬ t.uuid = uuid) :
    exec (deletePresent master none uuid) w = (.ok (), w) := by
  have hfind : find w.database uuid [] none = none :=
    List.find?_eq_none.mpr fun t ht hp => habsent t ht (of_decide_eq_true hp).1
  unfold deletePresent
  rw [exec_tryCatch, exec_delete_not_found master (Or.inl hfind)]
  rfl

theorem exec_deletePresent (uuid : String) :
    ∃ w', exec (deletePresent master none uuid) w = (.ok (), w') ∧
      w'.database = w.database.filter fun t => ¬ t.uuid = uuid := by
  by_cases hpresent : ∃ s ∈ w.database, s.uuid = uuid
  · obtain ⟨w', hok, hd⟩ := exec_delete_present master hpresent
    refine ⟨w', ?_, hd⟩
    unfold deletePresent
    rw [exec_tryCatch, hok]
  · have habsent : ∀ t ∈ w.database, ¬ t.uuid = uuid :=
      fun t ht huuid => hpresent ⟨t, ht, huuid⟩
    refine ⟨w, exec_deletePresent_absent master habsent, ?_⟩
    exact (List.filter_eq_self.mpr fun t ht => decide_eq_true (habsent t ht)).symm

theorem exec_deletePresent_all (uuids : List String) :
    ∃ w', exec (uuids.forM (deletePresent master none)) w = (.ok (), w') ∧
      w'.database = w.database.filter fun t => t.uuid ∉ uuids := by
  obtain ⟨w', hok, hd⟩ := exec_forM_ok World.database
    (fun database uuid => database.filter fun t => ¬ t.uuid = uuid) (J := fun _ => True)
    (fun _ _ _ _ => trivial) (fun uuid _ w _ => exec_deletePresent master (w := w) uuid)
    (s := w) trivial
  refine ⟨w', hok, ?_⟩
  rw [hd, KeyedList.foldl_filter]
  exact List.filter_congr fun t _ => decide_eq_decide.mpr List.forall_mem_ne

theorem exec_list_present (tenants : List String) (ownerUser eventsUser : Option String) :
    ∃ subscriptions, exec (SubscriptionService.list none tenants ownerUser eventsUser ∅) w =
        (.ok subscriptions, w) ∧
      ∀ s, s ∈ subscriptions ↔ s ∈ w.database ∧ Visible tenants ownerUser s ∧
        ((truthy eventsUser).isSome → s.eventsUserUuid = truthy eventsUser) := by
  refine ⟨_, exec_list tenants ownerUser eventsUser ∅, fun s => ?_⟩
  rw [List.mem_filter, decide_eq_true_iff]
  simp

theorem exec_removeUser (hc : Constraints w.database) {userUuid : String} (hne : userUuid ≠ "") :
    ∃ w', exec (removeUser master none iteration userUuid) w = (.ok (), w') ∧
      w'.database = SyncDb.removeUser userUuid w.database := by
  have htruthy : truthy (some userUuid) = some userUuid :=
    truthy_of_ne fun h => hne (Option.some.inj h)
  obtain ⟨owned, howned, hmemOwned⟩ := exec_list_present (w := w) [] (some userUuid) none
  obtain ⟨listened, hlistened, hmemListened⟩ := exec_list_present (w := w) [] none (some userUuid)
  have hmem : ∀ s, s ∈ owned ++ listened ↔ s ∈ w.database ∧ s.Refers userUuid := by
    intro s
    rw [List.mem_append, hmemOwned, hmemListened, Subscription.Refers]
    simp [Visible, htruthy, and_or_left]
  obtain ⟨w', hok, hd⟩ := exec_deletePresent_all master (w := w)
    (iteration.order ((owned ++ listened).map (·.uuid)).toFinset)
  refine ⟨w', ?_, ?_⟩
  · unfold removeUser
    rw [exec_bind_of_ok howned, exec_bind_of_ok hlistened, hok]
  · rw [hd, SyncDb.removeUser]
    refine hc.filter_notMem fun uuid => ?_
    simp only [iteration.mem_order, List.mem_toFinset, List.mem_map, hmem, and_assoc,
      Subscription.Refers]

theorem exec_removeTenant (hc : Constraints w.database) (tenantUuid : String) :
    ∃ w', exec (removeTenant master none tenantUuid) w = (.ok (), w') ∧
      w'.database = SyncDb.removeTenant tenantUuid w.database := by
  obtain ⟨subscriptions, hlist, hmem⟩ := exec_list_present (w := w) [tenantUuid] none none
  obtain ⟨w', hok, hd⟩ := exec_deletePresent_all master (w := w) (subscriptions.map (·.uuid))
  refine ⟨w', ?_, ?_⟩
  · unfold removeTenant
    rw [exec_bind_of_ok hlist, ← hok]
    exact congrArg (exec · w) (List.forM_map ..).symm
  · rw [hd, SyncDb.removeTenant]
    refine hc.filter_notMem fun uuid => ?_
    simp [hmem, Visible, and_assoc]

end Remove

def AuthEvent.Concerns (s : Subscription) : AuthEvent → Prop
  | .tenantDeleted tenantUuid => s.ownerTenantUuid = tenantUuid
  | .userDeleted userUuid => s.Refers userUuid

instance (s : Subscription) (event : AuthEvent) : Decidable (event.Concerns s) :=
  match event with
  | .tenantDeleted tenantUuid => inferInstanceAs (Decidable (s.ownerTenantUuid = tenantUuid))
  | .userDeleted userUuid => inferInstanceAs (Decidable (s.Refers userUuid))

/-- The events of what is not known: at least those of the tenants and users to which a row
refers, in any order. -/
structure Announces (authTenants authUsers : Finset String) (database : List Subscription)
    (events : List AuthEvent) : Prop where
  tenant : ∀ s ∈ database, s.ownerTenantUuid ∉ authTenants →
    .tenantDeleted s.ownerTenantUuid ∈ events
  user : ∀ s ∈ database, ∀ u, s.Refers u → u ∉ authUsers → .userDeleted u ∈ events
  tenant_unknown : ∀ t, .tenantDeleted t ∈ events → t ∉ authTenants
  user_unknown : ∀ u, .userDeleted u ∈ events → u ∉ authUsers ∧ u ≠ ""

section Events
variable (master : String) (iteration : SetIteration) {w : World} {events : List AuthEvent}

theorem exec_onDeletedEvent (hc : Constraints w.database) {event : AuthEvent}
    (hne : event ≠ .userDeleted "") :
    ∃ w', exec (onDeletedEvent master none iteration event) w = (.ok (), w') ∧
      w'.database = w.database.filter fun s => ¬ event.Concerns s := by
  cases event with
  | tenantDeleted tenantUuid => exact exec_removeTenant master hc tenantUuid
  | userDeleted userUuid =>
    exact exec_removeUser master iteration hc fun h => hne (congrArg AuthEvent.userDeleted h)

/-- What the events leave, in whatever order they come. -/
theorem exec_onDeletedEvents (hc : Constraints w.database) (hne : .userDeleted "" ∉ events) :
    ∃ w', exec (events.forM (onDeletedEvent master none iteration)) w = (.ok (), w') ∧
      w'.database = w.database.filter fun s => ∀ event ∈ events, ¬ event.Concerns s := by
  obtain ⟨w', hok, hd⟩ := exec_forM_ok World.database
    (fun database event => database.filter fun s => ¬ event.Concerns s) (J := Constraints)
    (fun event _ database hJ => hJ.filter _)
    (fun event hevent w hJ => exec_onDeletedEvent master iteration (w := w) hJ
      fun h => hne (h ▸ hevent)) hc
  exact ⟨w', hok, hd.trans (KeyedList.foldl_filter _ _ _)⟩

theorem Announces.known_iff {authTenants authUsers : Finset String}
    {database : List Subscription} (h : Announces authTenants authUsers database events)
    {s : Subscription} (hs : s ∈ database) :
    (∀ event ∈ events, ¬ event.Concerns s) ↔ s.Known authTenants authUsers := by
  rw [Subscription.known_iff_refers]
  constructor
  · intro hnone
    constructor
    · by_contra hunknown
      exact hnone _ (h.tenant s hs hunknown) rfl
    · intro u href
      by_contra hunknown
      exact hnone _ (h.user s hs u href hunknown) href
  · rintro ⟨htenant, husers⟩ event hevent hconcerns
    cases event with
    | tenantDeleted t => exact h.tenant_unknown t hevent (hconcerns ▸ htenant)
    | userDeleted u => exact (h.user_unknown u hevent).1 (husers u hconcerns)

end Events

/-- The resynchronisation leaves the known rows, as the events that it makes up for do, and
has nothing to do the second time. -/
theorem sync_agrees_with_events (master : String) (iteration iteration' : SetIteration)
    (authTenants authUsers : Finset String) {w : World} (hc : Constraints w.database)
    (hu : ∀ s ∈ w.database, s.UsersSet) :
    SyncDb.sync iteration authTenants authUsers w.database =
        (w.database.filter fun s => s.Known authTenants authUsers) ∧
      (∀ events, Announces authTenants authUsers w.database events →
        ∃ w', exec (events.forM (onDeletedEvent master none iteration')) w = (.ok (), w') ∧
          w'.database = SyncDb.sync iteration authTenants authUsers w.database) ∧
      SyncDb.sync iteration' authTenants authUsers
          (SyncDb.sync iteration authTenants authUsers w.database) =
        SyncDb.sync iteration authTenants authUsers w.database := by
  have hsync := SyncDb.sync_eq iteration authTenants authUsers hu
  refine ⟨hsync, ?_, SyncDb.sync_sync iteration iteration' authTenants authUsers hu⟩
  intro events h
  obtain ⟨w', hok, hd⟩ := exec_onDeletedEvents master iteration' hc
    fun hempty => (h.user_unknown "" hempty).2 rfl
  refine ⟨w', hok, ?_⟩
  rw [hd, hsync]
  refine List.filter_congr fun s hs => ?_
  rw [decide_eq_decide]
  exact h.known_iff hs

/-- A row that goes for two reasons, and one that stays. -/
theorem sync_agrees_with_events_twice :
    let kept := { Subscription.blank "a" "tenant" with eventsUserUuid := some "user" }
    let doomed := { Subscription.blank "b" "gone" with ownerUserUuid := some "former" }
    let w : World := ⟨[doomed, kept], .init "headers", [], []⟩
    SyncDb.sync .sorted {"tenant"} {"user"} w.database = [kept] ∧
      ∃ w', exec ([.userDeleted "former", .tenantDeleted "gone"].forM
          (onDeletedEvent "master" none .sorted)) w = (.ok (), w') ∧ w'.database = [kept] := by
  intro kept doomed w
  have hset : ∀ s ∈ w.database, s.UsersSet := by simp [w, kept, doomed, Subscription.UsersSet,
    Subscription.blank]
  have hevents : Announces {"tenant"} {"user"} w.database
      [.userDeleted "former", .tenantDeleted "gone"] := by
    constructor <;> simp [w, kept, doomed, Subscription.blank, Subscription.Refers]
  obtain ⟨hsync, hagree, -⟩ := sync_agrees_with_events "master" .sorted .sorted {"tenant"} {"user"}
    (w := w) (by decide) hset
  have hkept : SyncDb.sync .sorted {"tenant"} {"user"} w.database = [kept] :=
    hsync.trans (by decide)
  obtain ⟨w', hok, hd⟩ := hagree _ hevents
  exact ⟨hkept, w', hok, hd.trans hkept⟩

end WazoWebhookd

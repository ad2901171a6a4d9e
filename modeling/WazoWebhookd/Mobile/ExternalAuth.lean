import WazoWebhookd.Library.Run
import WazoWebhookd.Subscription.MetadataSearch

/-! The mobile service: one subscription for each user who has the external auth. -/
namespace WazoWebhookd
open Failing SubscriptionService

inductive ExternalAuthKind
  | added
  | updated
  | deleted
  deriving DecidableEq

/-- An `auth_user_external_auth_*` event: its data, and the tenant of its headers. -/
structure ExternalAuthEvent where
  kind : ExternalAuthKind
  externalAuthName : Option String
  userUuid : String
  tenantUuid : String
  userUuid_ne : userUuid ≠ ""
  tenantUuid_ne : tenantUuid ≠ ""

/-- The order in which the database returns the rows of a query. -/
structure RowOrder where
  arrange : List Subscription → List Subscription
  perm : ∀ rows, (arrange rows).Perm rows

namespace MobileService
variable (masterTenantUuid : String) (fault : Option Fault) (rowOrder : RowOrder)

def searchMobile : SearchMetadata := Finmap.singleton "mobile" "true"

def listMobile (userUuid tenantUuid : String) : ServiceM (List Subscription) := do
  let subscriptions ← SubscriptionService.list fault [tenantUuid] (some userUuid) none
    searchMobile
  pure (rowOrder.arrange subscriptions)

def mobileEvents : List String :=
  ["chatd_user_room_message_created", "call_push_notification", "call_cancel_push_notification",
    "user_voicemail_message_created", "global_voicemail_message_created", "user_missed_call"]

def newSubscription (userUuid tenantUuid : String) : SchemaKwargs where
  name := "Push notification mobile for user " ++ tenantUuid ++ "/" ++ userUuid
  service := "mobile"
  config := []
  events := mobileEvents
  metadata := [("mobile", some "true")]
  eventsWazoUuid := none
  eventsUserUuid := some (some userUuid)
  ownerUserUuid := some (some userUuid)
  ownerTenantUuid := some tenantUuid

def deleteAll (subscriptions : List Subscription) : ServiceM Unit :=
  (subscriptions.map (·.uuid)).forM fun uuid => delete masterTenantUuid fault uuid [] none

/-- `_ensure_mobile_subscription`, with the uuid of the row it may insert. -/
def ensureMobileSubscription (newUuid userUuid tenantUuid : String) : ServiceM Unit := do
  let subscriptions ← listMobile fault rowOrder userUuid tenantUuid
  match subscriptions with
  | [_] => pure ()
  | _ :: rest => deleteAll masterTenantUuid fault rest
  | [] => do
    let _ ← create masterTenantUuid fault newUuid (newSubscription userUuid tenantUuid)
    pure ()

/-- `on_external_auth_added` and `on_external_auth_updated`, which differ in what they log, and
`on_external_auth_deleted`. -/
def onExternalAuth (newUuid : String) (event : ExternalAuthEvent) : ServiceM Unit :=
  if event.externalAuthName = some "mobile" then
    match event.kind with
    | .added | .updated =>
      ensureMobileSubscription masterTenantUuid fault rowOrder newUuid event.userUuid
        event.tenantUuid
    | .deleted => do
      let subscriptions ← listMobile fault rowOrder event.userUuid event.tenantUuid
      deleteAll masterTenantUuid fault subscriptions
  else pure ()

end MobileService

/-- The row is a mobile subscription of the user. -/
structure Subscription.MobileOf (userUuid tenantUuid : String) (s : Subscription) : Prop where
  ownerTenant : s.ownerTenantUuid = tenantUuid
  ownerUser : s.ownerUserUuid = some userUuid
  mobile : ⟨"mobile", some "true"⟩ ∈ s.metadataRel

theorem Subscription.mobileOf_iff {userUuid tenantUuid : String} {s : Subscription} :
    s.MobileOf userUuid tenantUuid ↔ s.ownerTenantUuid = tenantUuid ∧
      s.ownerUserUuid = some userUuid ∧ ⟨"mobile", some "true"⟩ ∈ s.metadataRel :=
  ⟨fun h => ⟨h.ownerTenant, h.ownerUser, h.mobile⟩, fun h => ⟨h.1, h.2.1, h.2.2⟩⟩

instance (userUuid tenantUuid : String) (s : Subscription) :
    Decidable (s.MobileOf userUuid tenantUuid) := decidable_of_iff' _ Subscription.mobileOf_iff

def mobileOf (userUuid tenantUuid : String) (database : List Subscription) : List Subscription :=
  database.filter fun s => s.MobileOf userUuid tenantUuid

def notMobileOf (userUuid tenantUuid : String) (database : List Subscription) :
    List Subscription :=
  database.filter fun s => ¬ s.MobileOf userUuid tenantUuid

theorem matchesMetadata_singleton {key value : String} {s : Subscription} :
    MatchesMetadata (Finmap.singleton key value) s ↔ ⟨key, some value⟩ ∈ s.metadataRel := by
  rw [matchesMetadata_iff]
  constructor
  · exact fun hall => hall key value (Finmap.lookup_singleton_eq ..)
  · intro hrel key' value' hvalue
    rw [Finmap.lookup_singleton_ite] at hvalue
    split_ifs at hvalue with hkey
    · exact hkey ▸ Option.some.inj hvalue ▸ hrel

section Calls
open MobileService
variable (master : String) (rowOrder : RowOrder) {w : World} {userUuid : String}

theorem exec_listMobile (hne : userUuid ≠ "") (tenantUuid : String) :
    exec (listMobile none rowOrder userUuid tenantUuid) w =
      (.ok (rowOrder.arrange (mobileOf userUuid tenantUuid w.database)), w) := by
  have htruthy : truthy (some userUuid) = some userUuid :=
    truthy_of_ne fun h => hne (Option.some.inj h)
  have hsearch : searchMobile ≠ ∅ := by decide
  unfold listMobile
  rw [exec_bind, exec_list, if_neg nofun]
  have hfilter : ∀ s : Subscription, (Visible [tenantUuid] (some userUuid) s ∧
      ((truthy none).isSome → s.eventsUserUuid = truthy none) ∧
      (searchMobile ≠ ∅ → MatchesMetadata searchMobile s)) ↔ s.MobileOf userUuid tenantUuid := by
    intro s
    have hmatches : MatchesMetadata searchMobile s ↔ ⟨"mobile", some "true"⟩ ∈ s.metadataRel :=
      matchesMetadata_singleton
    rw [Subscription.mobileOf_iff]
    simp [Visible, htruthy, hsearch, hmatches, and_assoc]
  simp only [hfilter]
  rfl

theorem exec_delete_all {uuids : List String} (hn : uuids.Nodup)
    (hs : ∀ uuid ∈ uuids, ∃ s ∈ w.database, s.uuid = uuid) :
    ∃ w', exec (uuids.forM fun uuid => delete master none uuid [] none) w = (.ok (), w') ∧
      w'.database = w.database.filter fun t => t.uuid ∉ uuids := by
  induction uuids generalizing w with
  | nil => exact ⟨w, rfl, by simp⟩
  | cons uuid uuids ih =>
    obtain ⟨hnotMem, hn'⟩ := List.nodup_cons.mp hn
    obtain ⟨w₁, hok, hd⟩ := exec_delete_present master (hs uuid List.mem_cons_self)
    have hs₁ : ∀ uuid' ∈ uuids, ∃ s ∈ w₁.database, s.uuid = uuid' := by
      intro uuid' hmem
      obtain ⟨s, hs', hkey⟩ := hs uuid' (List.mem_cons_of_mem _ hmem)
      have hne : ¬ s.uuid = uuid := fun h => hnotMem (h ▸ hkey ▸ hmem)
      exact ⟨s, hd ▸ List.mem_filter.mpr ⟨hs', decide_eq_true hne⟩, hkey⟩
    obtain ⟨w₂, hrest, hend⟩ := ih hn' hs₁
    refine ⟨w₂, ?_, ?_⟩
    · change exec (delete master none uuid [] none >>= fun _ =>
        uuids.forM fun uuid => delete master none uuid [] none) w = _
      rw [exec_bind_of_ok hok, hrest]
    · rw [hend, hd, List.filter_filter]
      refine List.filter_congr fun t _ => ?_
      rw [Bool.eq_iff_iff]
      simp only [Bool.and_eq_true, decide_eq_true_eq, List.mem_cons, not_or]
      exact and_comm

theorem exec_deleteAll (hc : Constraints w.database) {subscriptions : List Subscription}
    (hn : subscriptions.Nodup) (hs : ∀ s ∈ subscriptions, s ∈ w.database) :
    ∃ w', exec (deleteAll master none subscriptions) w = (.ok (), w') ∧
      w'.database = w.database.filter fun t => ¬ t ∈ subscriptions := by
  have hkeys : (subscriptions.map (·.uuid)).Nodup :=
    hn.map_on fun s hs₁ t ht h => hc.uuid_inj (hs s hs₁) (hs t ht) h
  have hpresent : ∀ uuid ∈ subscriptions.map (·.uuid), ∃ s ∈ w.database, s.uuid = uuid := by
    intro uuid huuid
    obtain ⟨s, hmem, rfl⟩ := List.mem_map.mp huuid
    exact ⟨s, hs s hmem, rfl⟩
  obtain ⟨w', hok, hd⟩ := exec_delete_all master hkeys hpresent
  refine ⟨w', hok, ?_⟩
  rw [hd]
  refine hc.filter_notMem fun uuid => ?_
  rw [List.mem_map]
  constructor
  · rintro ⟨s, hmem, huuid⟩
    exact ⟨s, hs s hmem, hmem, huuid⟩
  · rintro ⟨s, -, hmem, huuid⟩
    exact ⟨s, hmem, huuid⟩

end Calls

/-- What an event comes to for the mobile subscriptions of its user, and for the others. -/
structure Ensured (w : World) (event : ExternalAuthEvent)
    (result : Except ServiceError Unit × World) : Prop where
  returns : result.1 = .ok ()
  constraints : Constraints result.2.database
  kept : event.externalAuthName = some "mobile" → event.kind ≠ .deleted →
    ∃ s, mobileOf event.userUuid event.tenantUuid result.2.database = [s] ∧
      (mobileOf event.userUuid event.tenantUuid w.database ≠ [] → s ∈ w.database)
  removed : event.externalAuthName = some "mobile" → event.kind = .deleted →
    mobileOf event.userUuid event.tenantUuid result.2.database = []
  ignored : event.externalAuthName ≠ some "mobile" → result.2 = w
  others : notMobileOf event.userUuid event.tenantUuid result.2.database =
    notMobileOf event.userUuid event.tenantUuid w.database

section Ensure
open MobileService
variable (master : String) (rowOrder : RowOrder) {w : World} {userUuid : String}
  {tenantUuid : String}

theorem exec_deleteMobile (hc : Constraints w.database) {subscriptions : List Subscription}
    (hn : subscriptions.Nodup)
    (hs : ∀ s ∈ subscriptions, s ∈ mobileOf userUuid tenantUuid w.database) :
    ∃ w', exec (deleteAll master none subscriptions) w = (.ok (), w') ∧
      Constraints w'.database ∧
      mobileOf userUuid tenantUuid w'.database =
        (mobileOf userUuid tenantUuid w.database).filter (fun t => ¬ t ∈ subscriptions) ∧
      notMobileOf userUuid tenantUuid w'.database =
        notMobileOf userUuid tenantUuid w.database := by
  obtain ⟨w', hok, hd⟩ := exec_deleteAll master hc hn fun s hmem =>
    (List.mem_filter.mp (hs s hmem)).1
  refine ⟨w', hok, hd ▸ hc.filter _, ?_, ?_⟩
  · rw [hd, mobileOf, mobileOf, List.filter_filter, List.filter_filter]
    exact List.filter_congr fun t _ => Bool.and_comm _ _
  · rw [hd, notMobileOf, notMobileOf, List.filter_filter]
    refine List.filter_congr fun t _ => ?_
    have hmobile : t ∈ subscriptions → t.MobileOf userUuid tenantUuid := fun hmem =>
      of_decide_eq_true (List.mem_filter.mp (hs t hmem)).2
    rw [Bool.eq_iff_iff, Bool.and_eq_true, decide_eq_true_iff, decide_eq_true_iff]
    exact and_iff_left_of_imp fun hnot hmem => hnot (hmobile hmem)

def MobileService.created (newUuid userUuid tenantUuid : String) : Subscription :=
  (Subscription.blank newUuid tenantUuid).fromSchema (newSubscription userUuid tenantUuid)

theorem created_mobileOf (newUuid userUuid tenantUuid : String) :
    (created newUuid userUuid tenantUuid).MobileOf userUuid tenantUuid where
  ownerTenant := rfl
  ownerUser := rfl
  mobile := List.mem_singleton_self _

variable (userUuid tenantUuid) in
theorem exec_createMobile (hc : Constraints w.database) {newUuid : String}
    (hfresh : ∀ s ∈ w.database, s.uuid ≠ newUuid) :
    ∃ w', exec (create master none newUuid (newSubscription userUuid tenantUuid)) w =
        (.ok (created newUuid userUuid tenantUuid), w') ∧
      Constraints w'.database ∧
      w'.database = w.database ++ [created newUuid userUuid tenantUuid] := by
  set s := created newUuid userUuid tenantUuid with hs
  have hevents : s.events.Nodup := by
    have hall : s.events = mobileEvents := rfl
    rw [hall]
    decide
  have hc' : Constraints (w.database ++ [s]) := hc.append hfresh hevents List.nodup_nil
  have ha : (ServiceCall.create newUuid (newSubscription userUuid tenantUuid)).announced
      w.database = some (.created s) := by
    change (if Constraints (w.database ++ [s]) then some (Notification.created s) else none) = _
    rw [if_pos hc']
  obtain ⟨s', hs', hok⟩ := exec_create_announced master ha
    (nofun : (none : Option Fault) ≠ some .flush)
  cases hs'
  exact ⟨_, hok, hc', rfl⟩

variable (tenantUuid) in
theorem exec_ensureMobileSubscription (hc : Constraints w.database) (hne : userUuid ≠ "")
    {newUuid : String} (hfresh : ∀ s ∈ w.database, s.uuid ≠ newUuid) :
    ∃ s w', exec (ensureMobileSubscription master none rowOrder newUuid userUuid tenantUuid) w =
        (.ok (), w') ∧ Constraints w'.database ∧
      mobileOf userUuid tenantUuid w'.database = [s] ∧
      (mobileOf userUuid tenantUuid w.database ≠ [] → s ∈ w.database) ∧
      notMobileOf userUuid tenantUuid w'.database =
        notMobileOf userUuid tenantUuid w.database := by
  have hperm := rowOrder.perm (mobileOf userUuid tenantUuid w.database)
  have hlist := exec_listMobile (w := w) rowOrder hne tenantUuid
  have hmem : ∀ s ∈ mobileOf userUuid tenantUuid w.database, s ∈ w.database :=
    fun s hs => (List.mem_filter.mp hs).1
  have hn : (mobileOf userUuid tenantUuid w.database).Nodup := hc.1.of_map.filter _
  unfold ensureMobileSubscription
  rw [exec_bind_of_ok hlist]
  match hrows : rowOrder.arrange (mobileOf userUuid tenantUuid w.database) with
  | [s] =>
    have hone : mobileOf userUuid tenantUuid w.database = [s] :=
      List.perm_singleton.mp (hrows ▸ hperm).symm
    exact ⟨s, w, rfl, hc, hone, fun _ => hmem s (hone ▸ List.mem_singleton_self s), rfl⟩
  | s :: t :: rest =>
    rw [hrows] at hperm
    obtain ⟨hnot, hrest⟩ := List.nodup_cons.mp (hperm.nodup_iff.mpr hn)
    obtain ⟨w', hok, hc', hmobile, hothers⟩ := exec_deleteMobile master hc hrest
      fun t' ht' => hperm.mem_iff.mp (List.mem_cons_of_mem s ht')
    have hone : mobileOf userUuid tenantUuid w'.database = [s] := by
      have hkept : (s :: t :: rest).filter (fun t' => ¬ t' ∈ t :: rest) = [s] := by
        have hgone : (t :: rest).filter (fun t' => ¬ t' ∈ t :: rest) = [] :=
          List.filter_eq_nil_iff.mpr fun t' ht' habsent => of_decide_eq_true habsent ht'
        rw [List.filter_cons_of_pos (p := fun t' => decide (¬ t' ∈ t :: rest))
          (decide_eq_true hnot), hgone]
      rw [hmobile]
      exact List.perm_singleton.mp (hkept ▸ (hperm.filter _).symm)
    exact ⟨s, w', hok, hc', hone, fun _ => hmem s (hperm.mem_iff.mp List.mem_cons_self), hothers⟩
  | [] =>
    have hnone : mobileOf userUuid tenantUuid w.database = [] :=
      List.perm_nil.mp (hrows ▸ hperm).symm
    obtain ⟨w', hok, hc', hd⟩ := exec_createMobile master userUuid tenantUuid hc hfresh
    have hmobile := created_mobileOf newUuid userUuid tenantUuid
    refine ⟨created newUuid userUuid tenantUuid, w', ?_, hc', ?_, ?_, ?_⟩
    · dsimp only
      rw [exec_bind_of_ok hok]
      rfl
    · rw [hd, mobileOf, List.filter_append, ← mobileOf, hnone]
      simp [hmobile]
    · exact fun h => absurd hnone h
    · rw [hd, notMobileOf, List.filter_append]
      simp [hmobile, notMobileOf]

/-- One event, in a database that has the uuid of no new row yet. -/
theorem exec_onExternalAuth (hc : Constraints w.database) {newUuid : String}
    (event : ExternalAuthEvent) (hfresh : ∀ s ∈ w.database, s.uuid ≠ newUuid) :
    Ensured w event (exec (onExternalAuth master none rowOrder newUuid event) w) := by
  unfold onExternalAuth
  split_ifs with hname
  · cases hkind : event.kind with
    | deleted =>
      have hlist := exec_listMobile (w := w) rowOrder event.userUuid_ne event.tenantUuid
      have hperm := rowOrder.perm (mobileOf event.userUuid event.tenantUuid w.database)
      have hn : (mobileOf event.userUuid event.tenantUuid w.database).Nodup :=
        hc.1.of_map.filter _
      obtain ⟨w', hok, hc', hmobile, hothers⟩ := exec_deleteMobile master hc
        (hperm.nodup_iff.mpr hn) fun s hs => hperm.mem_iff.mp hs
      dsimp only
      rw [exec_bind_of_ok hlist, hok]
      have hgone : mobileOf event.userUuid event.tenantUuid w'.database = [] := by
        rw [hmobile, List.filter_eq_nil_iff]
        intro s hs hnot
        exact of_decide_eq_true hnot (hperm.mem_iff.mpr hs)
      exact ⟨rfl, hc', fun _ h => absurd hkind h, fun _ _ => hgone, fun h => absurd hname h,
        hothers⟩
    | _ =>
      obtain ⟨s, w', hok, hc', hone, hold, hothers⟩ := exec_ensureMobileSubscription
        master rowOrder event.tenantUuid hc event.userUuid_ne hfresh
      dsimp only
      rw [hok]
      exact ⟨rfl, hc', fun _ _ => ⟨s, hone, hold⟩, fun _ h => by simp [hkind] at h,
        fun h => absurd hname h, hothers⟩
  · exact ⟨rfl, hc, fun h => absurd h hname, fun h => absurd h hname, fun _ => rfl, rfl⟩

end Ensure

/-- An event with what the database decides: the uuid a new row gets, and the order in which
rows are returned. -/
structure ExternalAuthStep where
  event : ExternalAuthEvent
  newUuid : String
  rowOrder : RowOrder

namespace ExternalAuthStep
variable (master : String)

def result (w : World) (l : ExternalAuthStep) : Except ServiceError Unit × World :=
  exec (MobileService.onExternalAuth master none l.rowOrder l.newUuid l.event) w

def step (w : World) (l : ExternalAuthStep) : World := (result master w l).2

/-- The database generates a uuid that no row has. -/
def Fresh (w : World) (l : ExternalAuthStep) : Prop := ∀ s ∈ w.database, s.uuid ≠ l.newUuid

/-- The event is about the mobile subscriptions of which `s` is one. -/
def Targets (s : Subscription) (l : ExternalAuthStep) : Prop :=
  l.event.externalAuthName = some "mobile" ∧ s.MobileOf l.event.userUuid l.event.tenantUuid

end ExternalAuthStep

theorem Ensured.mem_iff {w : World} {event : ExternalAuthEvent}
    {result : Except ServiceError Unit × World} (h : Ensured w event result) {s : Subscription}
    (hs : ¬ (event.externalAuthName = some "mobile" ∧
      s.MobileOf event.userUuid event.tenantUuid)) :
    s ∈ result.2.database ↔ s ∈ w.database := by
  by_cases hname : event.externalAuthName = some "mobile"
  · have hnot : ¬ s.MobileOf event.userUuid event.tenantUuid := fun hm => hs ⟨hname, hm⟩
    have hmem : ∀ database, s ∈ notMobileOf event.userUuid event.tenantUuid database ↔
        s ∈ database := by
      intro database
      rw [notMobileOf, List.mem_filter, decide_eq_true_iff]
      exact and_iff_left hnot
    rw [← hmem, h.others, hmem]
  · rw [h.ignored hname]

/-- After every event its user has the mobile subscriptions it should have, and a subscription
that no event is about never changes. -/
theorem mobile_subscription_ensured (master : String) {w : World} (hc : Constraints w.database)
    {events : List ExternalAuthStep}
    (hfresh : Run.Along (ExternalAuthStep.step master) ExternalAuthStep.Fresh w events) :
    Run.Along (ExternalAuthStep.step master)
        (fun w l => Ensured w l.event (l.result master w)) w events ∧
      ∀ s, (∀ l ∈ events, ¬ l.Targets s) →
        Run.Always (ExternalAuthStep.step master) (fun w' => s ∈ w'.database ↔ s ∈ w.database) w
          events := by
  have hensured : ∀ w (l : ExternalAuthStep), Constraints w.database → l.Fresh w →
      Ensured w l.event (l.result master w) :=
    fun w l hw hl => exec_onExternalAuth master l.rowOrder hw l.event hl
  constructor
  · exact Run.along_of_along (fun w l hw hl => (hensured w l hw hl).constraints) hensured hc hfresh
  · intro s hs
    have hboth := Run.along_and hfresh (Run.along_label.mpr hs)
    refine Run.always_of_along
      (J := fun w' => Constraints w'.database ∧ (s ∈ w'.database ↔ s ∈ w.database)) ?_
      (fun w' h => h.2) ⟨hc, Iff.rfl⟩ hboth
    rintro w' l ⟨hw', hiff⟩ ⟨hl, htargets⟩
    have he := hensured w' l hw' hl
    exact ⟨he.constraints, (he.mem_iff htargets).trans hiff⟩

def ExternalAuthEvent.ofMobile (kind : ExternalAuthKind) : ExternalAuthEvent where
  kind := kind
  externalAuthName := some "mobile"
  userUuid := "2f9ac4a6-1f6b-4a1e-8d0c-6f2b1f0c7d11"
  tenantUuid := "6c6d3b6c-58cb-4f5c-9a0e-0f1f0c1f7a03"
  userUuid_ne := by decide
  tenantUuid_ne := by decide

/-- Three mobile subscriptions of one user, an update, a deletion and an addition. -/
theorem mobile_subscription_ensured_duplicates :
    let mobile := fun uuid => { MobileService.created uuid
      "2f9ac4a6-1f6b-4a1e-8d0c-6f2b1f0c7d11" "6c6d3b6c-58cb-4f5c-9a0e-0f1f0c1f7a03" with
      name := "mobile" }
    let w : World := ⟨[mobile "a", mobile "b", mobile "c"], .init "headers", [], []⟩
    let reversed : RowOrder := ⟨List.reverse, List.reverse_perm⟩
    let events : List ExternalAuthStep := [⟨.ofMobile .updated, "d", reversed⟩,
      ⟨.ofMobile .deleted, "e", reversed⟩, ⟨.ofMobile .added, "f", reversed⟩]
    Run.Along (ExternalAuthStep.step "master")
        (fun w l => Ensured w l.event (l.result "master" w)) w events ∧
      (events.foldl (ExternalAuthStep.step "master") w).database.map (·.uuid) = ["f"] := by
  intro mobile w reversed events
  have hfresh : Run.Along (ExternalAuthStep.step "master") ExternalAuthStep.Fresh w events := by
    refine ⟨?_, ?_, ?_, trivial⟩ <;> unfold ExternalAuthStep.Fresh <;> decide
  exact ⟨(mobile_subscription_ensured "master" (by decide) hfresh).1, by decide⟩

end WazoWebhookd

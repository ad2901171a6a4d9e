import WazoWebhookd.Subscription.ServiceCalls

/-! The ownership filters of the service, as the resources use them: what they let through
when a tenant list is empty or a token has no user. -/
namespace WazoWebhookd
open Failing SubscriptionService

/-- With what a resource restricts a call: the visible tenants of an administrator, or the
tenant and the user of the token. -/
inductive Caller
  | admin (visibleTenants : List String)
  | user (tenantUuid : String) (userUuid : Option String)

namespace Caller

def ownerTenantUuids : Caller → List String
  | .admin visibleTenants => visibleTenants
  | .user tenantUuid _ => [tenantUuid]

def ownerUserUuid : Caller → Option String
  | .admin _ => none
  | .user _ userUuid => userUuid

/-- A token without a user owns nothing. -/
def Allowed (s : Subscription) : Caller → Prop
  | .admin visibleTenants => s.ownerTenantUuid ∈ visibleTenants
  | .user tenantUuid userUuid =>
    s.ownerTenantUuid = tenantUuid ∧ userUuid.isSome ∧ s.ownerUserUuid = userUuid

/-- Every filter the caller needs is set, or what is left of them lets nothing through: no
subscription is stored, or none in the tenant of the user, unless the empty user owns it. -/
def Filtered (database : List Subscription) : Caller → Prop
  | .admin visibleTenants => visibleTenants ≠ [] ∨ database = []
  | .user tenantUuid userUuid =>
    (truthy userUuid).isSome ∨ ∀ s ∈ database, s.ownerTenantUuid = tenantUuid →
      userUuid = some "" ∧ s.ownerUserUuid = some ""

end Caller

section Filters
variable {caller : Caller} {database : List Subscription} {s : Subscription}

theorem Caller.Filtered.allowed (h : caller.Filtered database) (hs : s ∈ database)
    (hv : Visible caller.ownerTenantUuids caller.ownerUserUuid s) : caller.Allowed s := by
  cases caller with
  | admin visibleTenants =>
    rcases h with hne | rfl
    · exact hv.1 hne
    · cases hs
  | user tenantUuid userUuid =>
    have htenant : s.ownerTenantUuid = tenantUuid :=
      List.mem_singleton.mp (hv.1 (List.cons_ne_nil _ _))
    rcases h with hsome | hempty
    · obtain ⟨hset, hne⟩ := truthy_isSome_iff.mp hsome
      exact ⟨htenant, hset, (hv.2 hsome).trans (truthy_of_ne hne)⟩
    · obtain ⟨rfl, howner⟩ := hempty s hs htenant
      exact ⟨htenant, rfl, howner⟩

theorem Caller.filtered_of_allowed
    (h : ∀ s ∈ database, Visible caller.ownerTenantUuids caller.ownerUserUuid s →
      caller.Allowed s) : caller.Filtered database := by
  cases caller with
  | admin visibleTenants =>
    by_cases hne : visibleTenants = []
    · right
      subst hne
      rw [List.eq_nil_iff_forall_not_mem]
      intro s hs
      have hv : Visible [] none s := ⟨by simp, by simp [truthy]⟩
      exact List.not_mem_nil (h s hs hv)
    · exact Or.inl hne
  | user tenantUuid userUuid =>
    by_cases hsome : (truthy userUuid).isSome
    · exact Or.inl hsome
    · right
      intro s hs htenant
      have hv : Visible [tenantUuid] userUuid s := ⟨by simp [htenant], fun h => absurd h hsome⟩
      obtain ⟨-, huser, howner⟩ := h s hs hv
      have hempty : userUuid = some "" := by
        by_contra hne
        exact hsome (truthy_isSome_iff.mpr ⟨huser, hne⟩)
      exact ⟨hempty, howner.trans hempty⟩

end Filters

/-- Whatever is asked for and whatever fails, the caller is shown what it is allowed, and a
call on anything else raises and leaves the world as it was. -/
structure FailsClosed (master : String) (w : World) (caller : Caller) : Prop where
  list : ∀ fault eventsUserUuid searchMetadata subscriptions w',
    exec (SubscriptionService.list fault caller.ownerTenantUuids caller.ownerUserUuid
      eventsUserUuid searchMetadata) w = (.ok subscriptions, w') →
    ∀ s ∈ subscriptions, caller.Allowed s
  get : ∀ fault uuid s w',
    exec (SubscriptionService.get fault uuid caller.ownerTenantUuids caller.ownerUserUuid) w =
      (.ok s, w') → caller.Allowed s
  update : ∀ fault, ∀ s ∈ w.database, ¬ caller.Allowed s → ∀ new order,
    ∃ e, exec (update master fault s.uuid new order caller.ownerTenantUuids
      caller.ownerUserUuid) w = (.error e, w)
  delete : ∀ fault, ∀ s ∈ w.database, ¬ caller.Allowed s →
    ∃ e, exec (delete master fault s.uuid caller.ownerTenantUuids caller.ownerUserUuid) w =
      (.error e, w)

section Calls
variable {w : World} {caller : Caller}

theorem find_eq_none_of_not_allowed (hw : Constraints w.database)
    (h : caller.Filtered w.database) {s : Subscription} (hs : s ∈ w.database)
    (hn : ¬ caller.Allowed s) :
    find w.database s.uuid caller.ownerTenantUuids caller.ownerUserUuid = none := by
  by_contra hsome
  obtain ⟨t, ht⟩ := Option.ne_none_iff_exists'.mp hsome
  obtain ⟨hmem, huuid, hv⟩ := mem_of_find ht
  obtain rfl : t = s := hw.uuid_inj hmem hs huuid
  exact hn (h.allowed hmem hv)

theorem FailsClosed.of_filtered (master : String) (hw : Constraints w.database)
    (h : caller.Filtered w.database) : FailsClosed master w caller where
  list := by
    intro fault eventsUserUuid searchMetadata subscriptions w' hok s hs
    obtain ⟨hmem, hv⟩ := mem_of_exec_list hok s hs
    exact h.allowed hmem hv
  get := by
    intro fault uuid s w' hok
    obtain ⟨hmem, -, hv⟩ := mem_of_exec_get_ hok
    exact h.allowed hmem hv
  update := by
    intro fault s hs hn new order
    have hnone := find_eq_none_of_not_allowed hw h hs hn
    exact ⟨_, exec_update_not_found master new order (Or.inl hnone)⟩
  delete := by
    intro fault s hs hn
    have hnone := find_eq_none_of_not_allowed hw h hs hn
    exact ⟨_, exec_delete_not_found master (Or.inl hnone)⟩

theorem FailsClosed.filtered {master : String} (h : FailsClosed master w caller) :
    caller.Filtered w.database := by
  apply Caller.filtered_of_allowed
  intro s hs hv
  have hlist : exec (SubscriptionService.list none caller.ownerTenantUuids caller.ownerUserUuid
      none ∅) w = _ := exec_list caller.ownerTenantUuids caller.ownerUserUuid none ∅
  rw [if_neg nofun] at hlist
  refine h.list _ _ _ _ _ hlist s (List.mem_filter.mpr ⟨hs, decide_eq_true ?_⟩)
  exact ⟨hv, by simp [truthy], by simp⟩

end Calls

/-- The filters fail closed exactly for the callers whose filters are all set, and over the
databases on which the missing ones make no difference. -/
theorem fails_closed_iff (master : String) {w : World} (hw : Constraints w.database)
    (caller : Caller) : FailsClosed master w caller ↔ caller.Filtered w.database :=
  ⟨FailsClosed.filtered, FailsClosed.of_filtered master hw⟩

def storedSubscriptions : List Subscription :=
  [Subscription.blank "3d0a2c2e-71d1-4d0e-8f86-9b1f6c0f1a01" "6c6d3b6c-58cb-4f5c-9a0e-0f1f0c1f7a03",
    { Subscription.blank "3d0a2c2e-71d1-4d0e-8f86-9b1f6c0f1a02"
        "6c6d3b6c-58cb-4f5c-9a0e-0f1f0c1f7a03" with
      ownerUserUuid := some "2f9ac4a6-1f6b-4a1e-8d0c-6f2b1f0c7d11" }]

theorem fails_closed_with_tenants :
    FailsClosed "master" ⟨storedSubscriptions, .init "headers", [], []⟩
        (.admin ["0d6b7c50-2c19-4b4e-9d0a-5c9b6e1d2f04"]) ↔
      Caller.Filtered storedSubscriptions (.admin ["0d6b7c50-2c19-4b4e-9d0a-5c9b6e1d2f04"]) :=
  fails_closed_iff "master" (by decide) _

/-- No visible tenant, or no user in the token: every subscription is shown. -/
theorem fails_open :
    let w : World := ⟨storedSubscriptions, .init "headers", [], []⟩
    Constraints w.database ∧ ¬ FailsClosed "master" w (.admin []) ∧
      ¬ FailsClosed "master" w (.user "6c6d3b6c-58cb-4f5c-9a0e-0f1f0c1f7a03" none) := by
  intro w
  have hadmin : ¬ Caller.Filtered w.database (.admin []) := by
    simp [Caller.Filtered, w, storedSubscriptions]
  have huser : ¬ Caller.Filtered w.database
      (.user "6c6d3b6c-58cb-4f5c-9a0e-0f1f0c1f7a03" none) := by
    simp [Caller.Filtered, w, storedSubscriptions, truthy, Subscription.blank]
  exact ⟨by decide, fun h => hadmin h.filtered, fun h => huser h.filtered⟩

end WazoWebhookd

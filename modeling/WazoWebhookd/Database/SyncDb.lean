import Mathlib.Data.Finset.SDiff
import Mathlib.Data.Finset.Sort
import Mathlib.Data.String.Basic
import WazoWebhookd.Database.Models
import WazoWebhookd.Library.KeyedList

/-! The offline resynchronisation: the subscriptions of the tenants and users that the
authentication server does not know are removed. -/
namespace WazoWebhookd

/-- The order in which a loop runs through a set. -/
structure SetIteration where
  order : Finset String → List String
  mem_order : ∀ {set x}, x ∈ order set ↔ x ∈ set

def SetIteration.sorted : SetIteration where
  order set := set.sort
  mem_order := Finset.mem_sort _

namespace SyncDb

def removeTenant (tenantUuid : String) (database : List Subscription) : List Subscription :=
  database.filter fun s => ¬ s.ownerTenantUuid = tenantUuid

def webhookdTenants (database : List Subscription) : Finset String :=
  (database.map (·.ownerTenantUuid)).toFinset

def removeTenants (iteration : SetIteration) (authTenants : Finset String)
    (database : List Subscription) : List Subscription :=
  (iteration.order (webhookdTenants database \ authTenants)).foldl
    (fun database tenantUuid => removeTenant tenantUuid database) database

def removeUser (userUuid : String) (database : List Subscription) : List Subscription :=
  database.filter fun s =>
    ¬ (s.ownerUserUuid = some userUuid ∨ s.eventsUserUuid = some userUuid)

def webhookdUsers (database : List Subscription) : Finset String :=
  (database.flatMap fun s => [s.ownerUserUuid, s.eventsUserUuid].filterMap truthy).toFinset

def removeUsers (iteration : SetIteration) (authUsers : Finset String)
    (database : List Subscription) : List Subscription :=
  (iteration.order (webhookdUsers database \ authUsers)).foldl
    (fun database userUuid => removeUser userUuid database) database

def sync (iteration : SetIteration) (authTenants authUsers : Finset String)
    (database : List Subscription) : List Subscription :=
  removeUsers iteration authUsers (removeTenants iteration authTenants database)

end SyncDb

/-- The user uuids of a row are null or not empty. -/
def Subscription.UsersSet (s : Subscription) : Prop :=
  s.ownerUserUuid ≠ some "" ∧ s.eventsUserUuid ≠ some ""

def Subscription.Refers (s : Subscription) (userUuid : String) : Prop :=
  s.ownerUserUuid = some userUuid ∨ s.eventsUserUuid = some userUuid

instance (s : Subscription) (userUuid : String) : Decidable (s.Refers userUuid) :=
  inferInstanceAs (Decidable (_ ∨ _))

/-- The tenant of a row is known, and so are its users where they are set. -/
structure Subscription.Known (authTenants authUsers : Finset String) (s : Subscription) :
    Prop where
  tenant : s.ownerTenantUuid ∈ authTenants
  ownerUser : ∀ u ∈ s.ownerUserUuid, u ∈ authUsers
  eventsUser : ∀ u ∈ s.eventsUserUuid, u ∈ authUsers

theorem Subscription.known_iff {authTenants authUsers : Finset String} {s : Subscription} :
    s.Known authTenants authUsers ↔ s.ownerTenantUuid ∈ authTenants ∧
      (∀ u ∈ s.ownerUserUuid, u ∈ authUsers) ∧ ∀ u ∈ s.eventsUserUuid, u ∈ authUsers :=
  ⟨fun h => ⟨h.tenant, h.ownerUser, h.eventsUser⟩, fun h => ⟨h.1, h.2.1, h.2.2⟩⟩

instance (authTenants authUsers : Finset String) (s : Subscription) :
    Decidable (s.Known authTenants authUsers) := decidable_of_iff' _ Subscription.known_iff

theorem Subscription.known_iff_refers {authTenants authUsers : Finset String} {s : Subscription} :
    s.Known authTenants authUsers ↔
      s.ownerTenantUuid ∈ authTenants ∧ ∀ u, s.Refers u → u ∈ authUsers := by
  rw [known_iff]
  refine and_congr_right fun _ => ?_
  constructor
  · rintro ⟨howner, hevents⟩ u (h | h)
    · exact howner u h
    · exact hevents u h
  · intro h
    exact ⟨fun u hu => h u (Or.inl hu), fun u hu => h u (Or.inr hu)⟩

namespace SyncDb
variable (iteration : SetIteration) {database : List Subscription}

theorem removeTenants_eq (authTenants : Finset String) :
    removeTenants iteration authTenants database =
      database.filter fun s => s.ownerTenantUuid ∈ authTenants := by
  unfold removeTenants removeTenant
  rw [KeyedList.foldl_filter]
  refine List.filter_congr fun s hs => ?_
  have hmem : s.ownerTenantUuid ∈ webhookdTenants database :=
    List.mem_toFinset.mpr (List.mem_map_of_mem hs)
  rw [decide_eq_decide]
  simp only [iteration.mem_order, Finset.mem_sdiff]
  constructor
  · intro h
    by_contra hunknown
    exact h _ ⟨hmem, hunknown⟩ rfl
  · intro hknown t ht heq
    exact ht.2 (heq ▸ hknown)

theorem mem_webhookdUsers {u : String} :
    u ∈ webhookdUsers database ↔ u ≠ "" ∧ ∃ s ∈ database, s.Refers u := by
  have htruthy : ∀ o : Option String, truthy o = some u ↔ u ≠ "" ∧ o = some u := by
    intro o
    by_cases ho : o = some ""
    · subst ho
      simp [truthy, eq_comm]
    · rw [truthy_of_ne ho]
      constructor
      · rintro rfl
        exact ⟨fun h => ho (congrArg some h), rfl⟩
      · exact fun h => h.2
  simp only [webhookdUsers, List.mem_toFinset, List.mem_flatMap, List.mem_filterMap,
    List.mem_cons, List.not_mem_nil, or_false, exists_eq_or_imp, exists_eq_left, htruthy,
    Subscription.Refers]
  constructor
  · rintro ⟨s, hs, ⟨hne, h⟩ | ⟨hne, h⟩⟩
    · exact ⟨hne, s, hs, Or.inl h⟩
    · exact ⟨hne, s, hs, Or.inr h⟩
  · rintro ⟨hne, s, hs, h | h⟩
    · exact ⟨s, hs, Or.inl ⟨hne, h⟩⟩
    · exact ⟨s, hs, Or.inr ⟨hne, h⟩⟩

theorem removeUsers_eq (authUsers : Finset String) (hu : ∀ s ∈ database, s.UsersSet) :
    removeUsers iteration authUsers database =
      database.filter fun s => (∀ u ∈ s.ownerUserUuid, u ∈ authUsers) ∧
        ∀ u ∈ s.eventsUserUuid, u ∈ authUsers := by
  unfold removeUsers removeUser
  rw [KeyedList.foldl_filter]
  refine List.filter_congr fun s hs => ?_
  have hset : ∀ u, s.Refers u → u ≠ "" := by
    rintro u (h | h) rfl
    · exact (hu s hs).1 h
    · exact (hu s hs).2 h
  rw [decide_eq_decide]
  simp only [iteration.mem_order, Finset.mem_sdiff, mem_webhookdUsers]
  constructor
  · intro h
    have hknown : ∀ u, s.Refers u → u ∈ authUsers := by
      intro u href
      by_contra hunknown
      exact h u ⟨⟨hset u href, s, hs, href⟩, hunknown⟩ href
    exact ⟨fun u hmem => hknown u (Or.inl hmem), fun u hmem => hknown u (Or.inr hmem)⟩
  · rintro ⟨howner, hevents⟩ u ⟨-, hunknown⟩ (href | href)
    · exact hunknown (howner u href)
    · exact hunknown (hevents u href)

/-- The rows that stay are the known ones, in whatever order the sets are run through. -/
theorem sync_eq (authTenants authUsers : Finset String) (hu : ∀ s ∈ database, s.UsersSet) :
    sync iteration authTenants authUsers database =
      database.filter fun s => s.Known authTenants authUsers := by
  have hkept : ∀ s ∈ database.filter fun s => s.ownerTenantUuid ∈ authTenants, s.UsersSet :=
    fun s hs => hu s (List.mem_filter.mp hs).1
  unfold sync
  rw [removeTenants_eq, removeUsers_eq iteration authUsers hkept, List.filter_filter]
  refine List.filter_congr fun s _ => ?_
  simp only [Subscription.known_iff, Bool.decide_and, Bool.and_comm]

theorem sync_sync (iteration' : SetIteration) (authTenants authUsers : Finset String)
    (hu : ∀ s ∈ database, s.UsersSet) :
    sync iteration' authTenants authUsers (sync iteration authTenants authUsers database) =
      sync iteration authTenants authUsers database := by
  rw [sync_eq iteration authTenants authUsers hu,
    sync_eq iteration' authTenants authUsers fun s hs => hu s (List.mem_filter.mp hs).1,
    List.filter_filter]
  refine List.filter_congr fun s _ => ?_
  exact Bool.and_self _

end SyncDb

end WazoWebhookd

import WazoWebhookd.Mobile.BusNotifications
import WazoWebhookd.Mobile.StaleListings
import WazoWebhookd.Subscription.BusEvents

/-! The hooks of a user of the mobile service, from the events of the external auth to the
notification, in runs where everything else happens too. -/
namespace WazoWebhookd
open Failing HeadersExchange SubscriptionService MobileService

section Serving
variable (master : String)

/-- The handlers of the external auths leave a daemon that serves its database. -/
theorem preserves_onExternalAuth (rowOrder : RowOrder) (newUuid : String)
    (event : ExternalAuthEvent) :
    Preserves (World.Serving master) (onExternalAuth master none rowOrder newUuid event) := by
  by_cases hname : event.externalAuthName = some "mobile"
  · have hlist : Reads (listMobile none rowOrder event.userUuid event.tenantUuid) :=
      (reads_list _ _ _ _ _).bind fun _ => reads_pure _
    rw [onExternalAuth_eq master rowOrder newUuid hname]
    refine hlist.preserves.bind fun subscriptions => ?_
    split_ifs
    · exact (preserves_create master newUuid _).bind fun _ => (reads_pure ()).preserves
    · exact preserves_cleanupSteps master (fun uuid => preserves_delete master uuid [] none) _
  · unfold onExternalAuth
    rw [if_neg hname]
    exact (reads_pure ()).preserves

end Serving

/-- What happens to the daemon: an event of wazo-auth, or a step of its own. -/
inductive MobileStep
  | externalAuth (l : ExternalAuthStep)
  | deleted (iteration : SetIteration) (event : AuthEvent)
  | daemon (l : DaemonStep)

section Runs
variable (master userUuid tenantUuid : String)

def World.mobileStep (w : World) : MobileStep → World
  | .externalAuth l => l.step master w
  | .deleted iteration event => (exec (onDeletedEvent master none iteration event) w).2
  | .daemon l => w.step master l

/-- A generated uuid is new, a deleted user has one, and the other steps are quiet and leave the
mobile subscriptions of the user alone. -/
def World.LeavesMobile (w : World) : MobileStep → Prop
  | .externalAuth l => l.Fresh w
  | .deleted _ event => event ≠ .userDeleted ""
  | .daemon l => w.Quiet l ∧ mobileOf userUuid tenantUuid (w.step master l).database =
      mobileOf userUuid tenantUuid w.database

/-- Whether the user has the external auth after one more step. -/
def MobileStep.registers (registered : Bool) : MobileStep → Bool
  | .externalAuth l =>
    if l.event.externalAuthName = some "mobile" ∧ l.event.userUuid = userUuid ∧
        l.event.tenantUuid = tenantUuid then
      l.event.kind ≠ .deleted
    else registered
  | .deleted _ (.userDeleted user) => registered && user ≠ userUuid
  | .deleted _ (.tenantDeleted tenant) => registered && tenant ≠ tenantUuid
  | .daemon _ => registered

/-- The daemon serves its database, in which the user has the one subscription that the service
has created, or none. -/
structure World.MobileUser (registered : Bool) (w : World) : Prop where
  serving : w.Serving master
  mobile : ∃ uuid, mobileOf userUuid tenantUuid w.database =
    if registered then [created uuid userUuid tenantUuid] else []

variable {master userUuid tenantUuid} {w : World}

theorem mobileOf_onExternalAuth_new (rowOrder : RowOrder) {newUuid : String}
    {event : ExternalAuthEvent} (hc : Constraints w.database)
    (hfresh : ∀ s ∈ w.database, s.uuid ≠ newUuid)
    (hname : event.externalAuthName = some "mobile") (hkind : event.kind ≠ .deleted)
    (hnone : mobileOf event.userUuid event.tenantUuid w.database = []) :
    mobileOf event.userUuid event.tenantUuid
        (exec (onExternalAuth master none rowOrder newUuid event) w).2.database =
      [created newUuid event.userUuid event.tenantUuid] := by
  have hlist := exec_listMobile (w := w) rowOrder event.userUuid_ne event.tenantUuid
  have hrows : rowOrder.arrange (mobileOf event.userUuid event.tenantUuid w.database) = [] :=
    List.perm_nil.mp (hnone ▸ rowOrder.perm _)
  rw [hrows] at hlist
  obtain ⟨w', hok, -, hd⟩ :=
    exec_createMobile master event.userUuid event.tenantUuid hc hfresh
  have hensure : exec (ensureMobileSubscription master none rowOrder newUuid event.userUuid
      event.tenantUuid) w = (.ok (), w') := by
    unfold ensureMobileSubscription
    rw [exec_bind_of_ok hlist]
    dsimp only
    rw [exec_bind_of_ok hok]
    rfl
  have hrun : exec (onExternalAuth master none rowOrder newUuid event) w = (.ok (), w') := by
    unfold onExternalAuth
    rw [if_pos hname]
    cases hk : event.kind with
    | deleted => exact absurd hk hkind
    | _ => exact hensure
  have hmobile := created_mobileOf newUuid event.userUuid event.tenantUuid
  rw [hrun, hd, mobileOf, List.filter_append, ← mobileOf, hnone]
  simp [hmobile]

theorem Ensured.mobileOf_eq {event : ExternalAuthEvent}
    {result : Except ServiceError Unit × World} (h : Ensured w event result)
    (hother : ¬ (event.externalAuthName = some "mobile" ∧ event.userUuid = userUuid ∧
      event.tenantUuid = tenantUuid)) :
    mobileOf userUuid tenantUuid result.2.database = mobileOf userUuid tenantUuid w.database := by
  by_cases hname : event.externalAuthName = some "mobile"
  · have hmine : ∀ s : Subscription, s.MobileOf userUuid tenantUuid →
        ¬ s.MobileOf event.userUuid event.tenantUuid := by
      intro s hs hs'
      have huser := Option.some.inj (hs'.ownerUser.symm.trans hs.ownerUser)
      exact hother ⟨hname, huser, hs'.ownerTenant.symm.trans hs.ownerTenant⟩
    have hamong : ∀ database, mobileOf userUuid tenantUuid database =
        mobileOf userUuid tenantUuid
          (notMobileOf event.userUuid event.tenantUuid database) := by
      intro database
      rw [mobileOf, mobileOf, notMobileOf, List.filter_filter]
      refine List.filter_congr fun s _ => ?_
      by_cases hs : s.MobileOf userUuid tenantUuid
      · simp [hs, hmine s hs]
      · simp [hs]
    rw [hamong, h.others, ← hamong]
  · rw [h.ignored hname]

theorem concerns_created_iff {uuid : String} (event : AuthEvent) :
    event.Concerns (created uuid userUuid tenantUuid) ↔
      event = .userDeleted userUuid ∨ event = .tenantDeleted tenantUuid := by
  cases event with
  | tenantDeleted tenant =>
    change tenantUuid = tenant ↔ _
    simp [eq_comm]
  | userDeleted user =>
    change some userUuid = some user ∨ some userUuid = some user ↔ _
    simp [eq_comm]

theorem World.MobileUser.externalAuth {registered : Bool}
    (h : w.MobileUser master userUuid tenantUuid registered) {l : ExternalAuthStep}
    (hl : l.Fresh w) : (l.step master w).MobileUser master userUuid tenantUuid
      ((MobileStep.externalAuth l).registers userUuid tenantUuid registered) := by
  have hc := h.serving.agreeing.constraints
  have he := exec_onExternalAuth master l.rowOrder hc l.event hl
  have hserving : (l.step master w).Serving master :=
    preserves_onExternalAuth master l.rowOrder l.newUuid l.event w h.serving
  obtain ⟨uuid, hmobile⟩ := h.mobile
  refine ⟨hserving, ?_⟩
  rw [MobileStep.registers]
  by_cases hmine : l.event.externalAuthName = some "mobile" ∧ l.event.userUuid = userUuid ∧
      l.event.tenantUuid = tenantUuid
  · rw [if_pos hmine]
    obtain ⟨hname, rfl, rfl⟩ := hmine
    by_cases hkind : l.event.kind = .deleted
    · refine ⟨uuid, ?_⟩
      rw [if_neg (by simp [hkind])]
      exact he.removed hname hkind
    · have hset : decide (l.event.kind ≠ .deleted) = true := decide_eq_true hkind
      rw [hset]
      cases registered with
      | false =>
        exact ⟨l.newUuid, mobileOf_onExternalAuth_new l.rowOrder hc hl hname hkind hmobile⟩
      | true =>
        obtain ⟨s, hone, hold⟩ := he.kept hname hkind
        rw [if_pos rfl] at hmobile
        have hstored : s ∈ w.database := hold (by simp [hmobile])
        have hs : s ∈ mobileOf l.event.userUuid l.event.tenantUuid w.database := by
          have hmem := List.mem_singleton_self s
          rw [← hone] at hmem
          exact List.mem_filter.mpr ⟨hstored, (List.mem_filter.mp hmem).2⟩
        rw [hmobile, List.mem_singleton] at hs
        exact ⟨uuid, hs ▸ hone⟩
  · rw [if_neg hmine]
    exact ⟨uuid, (he.mobileOf_eq hmine).trans hmobile⟩

theorem World.MobileUser.deleted {registered : Bool}
    (h : w.MobileUser master userUuid tenantUuid registered) (iteration : SetIteration)
    {event : AuthEvent} (hne : event ≠ .userDeleted "") :
    (exec (onDeletedEvent master none iteration event) w).2.MobileUser master userUuid tenantUuid
      ((MobileStep.deleted iteration event).registers userUuid tenantUuid registered) := by
  obtain ⟨w', hok, hd⟩ :=
    exec_onDeletedEvent master iteration h.serving.agreeing.constraints hne
  have hserving := preserves_onDeletedEvent master iteration event w h.serving
  rw [hok] at hserving ⊢
  obtain ⟨uuid, hmobile⟩ := h.mobile
  have hleft : mobileOf userUuid tenantUuid w'.database =
      (mobileOf userUuid tenantUuid w.database).filter fun s => ¬ event.Concerns s := by
    rw [hd, mobileOf, mobileOf, List.filter_comm]
  refine ⟨hserving, uuid, ?_⟩
  rw [hleft, hmobile]
  cases registered with
  | false => cases event <;> rfl
  | true =>
    simp only [if_true, List.filter_cons, List.filter_nil, concerns_created_iff]
    cases event with
    | userDeleted user => by_cases hu : user = userUuid <;> simp [MobileStep.registers, hu]
    | tenantDeleted tenant => by_cases ht : tenant = tenantUuid <;> simp [MobileStep.registers, ht]

theorem World.MobileUser.step {registered : Bool}
    (h : w.MobileUser master userUuid tenantUuid registered) {l : MobileStep}
    (hl : w.LeavesMobile master userUuid tenantUuid l) :
    (w.mobileStep master l).MobileUser master userUuid tenantUuid
      (l.registers userUuid tenantUuid registered) := by
  cases l with
  | externalAuth l => exact h.externalAuth hl
  | deleted iteration event => exact h.deleted iteration hl
  | daemon l =>
    obtain ⟨uuid, hmobile⟩ := h.mobile
    exact ⟨h.serving.step hl.1, uuid, hl.2.trans hmobile⟩

theorem World.MobileUser.run {registered : Bool}
    (h : w.MobileUser master userUuid tenantUuid registered) {history : List MobileStep}
    (hv : Run.Along (World.mobileStep master) (World.LeavesMobile master userUuid tenantUuid) w
      history) :
    (history.foldl (World.mobileStep master) w).MobileUser master userUuid tenantUuid
      (history.foldl (MobileStep.registers userUuid tenantUuid) registered) := by
  induction history generalizing w registered with
  | nil => exact h
  | cons l history ih => exact ih (h.step hv.1) hv.2

end Runs

section Messages
variable {master userUuid tenantUuid : String}

end Messages

section Main
variable (master : String) (serviceManager : String → Option EntryPoint) (config : HookConfig)
  {userUuid tenantUuid : String}

end Main

def missedByUser : Message :=
  { missedCallMessage with
    headers := missedCallMessage.headers.insert
      "user_uuid:2f9ac4a6-1f6b-4a1e-8d0c-6f2b1f0c7d11" (.bool true) }

end WazoWebhookd

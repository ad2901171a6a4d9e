import WazoWebhookd.Mobile.ExternalAuth
import WazoWebhookd.Subscription.ForeignDeletions

/-! The mobile service deletes the subscriptions of a listing, one by one, while requests delete
subscriptions too. -/
namespace WazoWebhookd
open Failing SubscriptionService

namespace MobileService
variable (master : String)

def deleteTurn (uuid : String) : ServiceM Unit := delete master none uuid [] none

/-- What a handler deletes of what it has listed. -/
def toDelete (kind : ExternalAuthKind) (listed : List Subscription) : List Subscription :=
  match kind with
  | .added | .updated => listed.tail
  | .deleted => listed

theorem toDelete_sublist (kind : ExternalAuthKind) (listed : List Subscription) :
    (toDelete kind listed).Sublist listed := by
  cases kind with
  | deleted => exact List.Sublist.refl listed
  | _ => exact List.tail_sublist listed

theorem toDelete_eq_tail {kind : ExternalAuthKind} (h : kind ≠ .deleted)
    (listed : List Subscription) : toDelete kind listed = listed.tail := by
  cases kind with
  | deleted => exact absurd rfl h
  | _ => rfl

/-- With no request in between, the handler is its listing and its turns, or a creation. -/
theorem onExternalAuth_eq (rowOrder : RowOrder) (newUuid : String) {event : ExternalAuthEvent}
    (hname : event.externalAuthName = some "mobile") :
    onExternalAuth master none rowOrder newUuid event =
      listMobile none rowOrder event.userUuid event.tenantUuid >>= fun listed =>
        if event.kind ≠ .deleted ∧ listed = [] then do
          let _ ← create master none newUuid (newSubscription event.userUuid event.tenantUuid)
          pure ()
        else (((toDelete event.kind listed).map (·.uuid)).map .own).forM
          (CleanupStep.run master (deleteTurn master)) := by
  unfold onExternalAuth
  rw [if_pos hname]
  cases hkind : event.kind with
  | deleted =>
    refine bind_congr fun listed => ?_
    rw [if_neg fun h => h.1 rfl, forM_own]
    rfl
  | _ =>
    refine bind_congr fun listed => ?_
    rcases listed with _ | ⟨s, _ | ⟨t, rest⟩⟩
    · rw [if_pos ⟨nofun, rfl⟩]
    · rw [if_neg fun h => List.cons_ne_nil _ _ h.2, forM_own]
      rfl
    · rw [if_neg fun h => List.cons_ne_nil _ _ h.2, forM_own]
      rfl

end MobileService

/-- What is expected of a handler that deletes, among the subscriptions it has listed. -/
structure DeletesListed (kind : ExternalAuthKind) (listed : List Subscription)
    (result : Except ServiceError Unit × World) : Prop where
  returns : result.1 = .ok ()
  removed : kind = .deleted → ∀ s ∈ listed, s ∉ result.2.database
  one : kind ≠ .deleted → (listed.filter fun s => s ∈ result.2.database).length ≤ 1

/-- No request deletes a row whose turn is still to come. -/
def Undisturbed (database : List Subscription) : List CleanupStep → Prop
  | [] => True
  | .own _ :: rest => Undisturbed database rest
  | .foreign request :: rest =>
    (∀ s ∈ database, request.Deletes s → s.uuid ∉ rest.filterMap CleanupStep.own?) ∧
      Undisturbed database rest

section Turns
open MobileService
variable (master : String) {w : World}

theorem exec_deleteTurn_absent {uuid : String} (h : ∀ s ∈ w.database, ¬ s.uuid = uuid) :
    exec (deleteTurn master uuid) w = (.error (.noSuchSubscription uuid), w) := by
  have hfind : find w.database uuid [] none = none :=
    List.find?_eq_none.mpr fun t ht hp => h t ht (of_decide_eq_true hp).1
  exact exec_delete_not_found master (.inl hfind)

theorem exec_steps_absent (hc : Constraints w.database) {uuid : String}
    (hgone : ∀ s ∈ w.database, ¬ s.uuid = uuid) {steps : List CleanupStep}
    (hturn : uuid ∈ steps.filterMap CleanupStep.own?) :
    ∃ e, (exec (steps.forM (CleanupStep.run master (deleteTurn master))) w).1 = .error e := by
  induction steps generalizing w with
  | nil => cases hturn
  | cons step rest ih =>
    change ∃ e, (exec (step.run master (deleteTurn master) >>= fun _ =>
      rest.forM (CleanupStep.run master (deleteTurn master))) w).1 = .error e
    cases step with
    | foreign request =>
      obtain ⟨w', hok, hd⟩ := exec_foreign master hc (deleteTurn master) request
      rw [exec_bind_of_ok hok]
      refine ih (hd ▸ hc.filter _) (fun s hs => ?_) hturn
      rw [hd] at hs
      exact hgone s (List.mem_filter.mp hs).1
    | own uuid' =>
      by_cases hpresent : ∃ s ∈ w.database, s.uuid = uuid'
      · obtain ⟨w', hok, hd⟩ := exec_delete_present master hpresent
        have hne : uuid ≠ uuid' := by
          rintro rfl
          obtain ⟨s, hs, huuid⟩ := hpresent
          exact hgone s hs huuid
        have hlater : uuid ∈ rest.filterMap CleanupStep.own? :=
          (List.mem_cons.mp hturn).resolve_left hne
        have hrun : exec ((CleanupStep.own uuid').run master (deleteTurn master)) w =
            (.ok (), w') := hok
        rw [exec_bind_of_ok hrun]
        refine ih (hd ▸ hc.filter _) (fun s hs => ?_) hlater
        rw [hd] at hs
        exact hgone s (List.mem_filter.mp hs).1
      · have hrun : exec ((CleanupStep.own uuid').run master (deleteTurn master)) w =
            (.error (.noSuchSubscription uuid'), w) :=
          exec_deleteTurn_absent master fun s hs h => hpresent ⟨s, hs, h⟩
        rw [exec_bind_of_error hrun]
        exact ⟨_, rfl⟩

/-- The rows whose turn is still to come are there. -/
structure AllPending (database : List Subscription) (steps : List CleanupStep) (w : World) :
    Prop where
  constraints : Constraints w.database
  sub : ∀ s ∈ w.database, s ∈ database
  present : ∀ uuid ∈ steps.filterMap CleanupStep.own?, ∃ s ∈ w.database, s.uuid = uuid
  nodup : (steps.filterMap CleanupStep.own?).Nodup

variable {database : List Subscription} {steps : List CleanupStep}

theorem AllPending.own {uuid : String} (h : AllPending database (.own uuid :: steps) w) :
    ∃ w', exec ((CleanupStep.own uuid).run master (deleteTurn master)) w = (.ok (), w') ∧
      (w'.database = w.database.filter fun s => ¬ s.uuid = uuid) ∧
      AllPending database steps w' := by
  obtain ⟨hnot, hn⟩ := List.nodup_cons.mp h.nodup
  obtain ⟨w', hok, hd⟩ := exec_delete_present master (h.present uuid List.mem_cons_self)
  refine ⟨w', hok, hd, hd ▸ h.constraints.filter _, fun s hs => ?_, fun uuid' hturn => ?_, hn⟩
  · rw [hd] at hs
    exact h.sub s (List.mem_filter.mp hs).1
  · obtain ⟨s, hs, hkey⟩ := h.present uuid' (List.mem_cons_of_mem uuid hturn)
    have hne : ¬ s.uuid = uuid := fun huuid => hnot (huuid ▸ hkey ▸ hturn)
    exact ⟨s, hd ▸ List.mem_filter.mpr ⟨hs, decide_eq_true hne⟩, hkey⟩

theorem AllPending.foreign {request : DeleteRequest}
    (h : AllPending database (.foreign request :: steps) w)
    (hspared : ∀ s ∈ database, request.Deletes s →
      s.uuid ∉ steps.filterMap CleanupStep.own?) :
    ∃ w', exec ((CleanupStep.foreign request).run master (deleteTurn master)) w = (.ok (), w') ∧
      (w'.database = w.database.filter fun s => ¬ request.Deletes s) ∧
      AllPending database steps w' := by
  obtain ⟨w', hok, hd⟩ := exec_foreign master h.constraints (deleteTurn master) request
  refine ⟨w', hok, hd, hd ▸ h.constraints.filter _, fun s hs => ?_, fun uuid hturn => ?_,
    h.nodup⟩
  · rw [hd] at hs
    exact h.sub s (List.mem_filter.mp hs).1
  · obtain ⟨s, hs, rfl⟩ := h.present uuid hturn
    have hkept : ¬ request.Deletes s := fun hdel => hspared s (h.sub s hs) hdel hturn
    exact ⟨s, hd ▸ List.mem_filter.mpr ⟨hs, decide_eq_true hkept⟩, rfl⟩

theorem exec_steps_undisturbed (h : AllPending database steps w)
    (hu : Undisturbed database steps) :
    ∃ w', exec (steps.forM (CleanupStep.run master (deleteTurn master))) w = (.ok (), w') ∧
      w'.database = w.database.filter fun s => ∀ step ∈ steps, step.Spares s := by
  induction steps generalizing w with
  | nil => exact ⟨w, rfl, by simp⟩
  | cons step rest ih =>
    have hstep : ∃ w', exec (step.run master (deleteTurn master)) w = (.ok (), w') ∧
        (w'.database = w.database.filter fun s => step.Spares s) ∧
        AllPending database rest w' ∧ Undisturbed database rest := by
      cases step with
      | own uuid =>
        obtain ⟨w', hok, hd, h'⟩ := h.own master
        exact ⟨w', hok, hd, h', hu⟩
      | foreign request =>
        obtain ⟨w', hok, hd, h'⟩ := h.foreign master hu.1
        exact ⟨w', hok, hd, h', hu.2⟩
    obtain ⟨w₁, hok, hd, h₁, hu₁⟩ := hstep
    obtain ⟨w₂, hrest, hend⟩ := ih h₁ hu₁
    refine ⟨w₂, ?_, ?_⟩
    · change exec (step.run master (deleteTurn master) >>= fun _ =>
        rest.forM (CleanupStep.run master (deleteTurn master))) w = _
      rw [exec_bind_of_ok hok, hrest]
    · rw [hend, hd, List.filter_filter]
      refine List.filter_congr fun s _ => ?_
      rw [Bool.eq_iff_iff, Bool.and_eq_true, decide_eq_true_iff, decide_eq_true_iff,
        decide_eq_true_iff, List.forall_mem_cons, and_comm]

theorem exec_steps_disturbed (h : AllPending database steps w)
    (hold : ∀ s ∈ database, s.uuid ∈ steps.filterMap CleanupStep.own? → s ∈ w.database)
    (hu : ¬ Undisturbed database steps) :
    ∃ e, (exec (steps.forM (CleanupStep.run master (deleteTurn master))) w).1 = .error e := by
  induction steps generalizing w with
  | nil => exact absurd trivial hu
  | cons step rest ih =>
    change ∃ e, (exec (step.run master (deleteTurn master) >>= fun _ =>
      rest.forM (CleanupStep.run master (deleteTurn master))) w).1 = .error e
    cases step with
    | own uuid =>
      obtain ⟨w', hok, hd, h'⟩ := h.own master
      rw [exec_bind_of_ok hok]
      refine ih h' (fun s hs hturn => ?_) hu
      have hne : ¬ s.uuid = uuid := by
        rintro rfl
        exact (List.nodup_cons.mp h.nodup).1 hturn
      rw [hd]
      exact List.mem_filter.mpr ⟨hold s hs (List.mem_cons_of_mem uuid hturn), decide_eq_true hne⟩
    | foreign request =>
      obtain ⟨w', hok, hd⟩ := exec_foreign master h.constraints (deleteTurn master) request
      rw [exec_bind_of_ok hok]
      by_cases hspared : ∀ s ∈ database, request.Deletes s →
          s.uuid ∉ rest.filterMap CleanupStep.own?
      · obtain ⟨w'', hok', hd', h'⟩ := h.foreign master hspared
        cases hok.symm.trans hok'
        refine ih h' (fun s hs hturn => ?_) fun hrest => hu ⟨hspared, hrest⟩
        have hkept : ¬ request.Deletes s := fun hdel => hspared s hs hdel hturn
        rw [hd]
        exact List.mem_filter.mpr ⟨hold s hs hturn, decide_eq_true hkept⟩
      · simp only [not_forall, not_not, exists_prop] at hspared
        obtain ⟨s, hs, hdel, hturn⟩ := hspared
        refine exec_steps_absent master (hd ▸ h.constraints.filter _) (fun t ht huuid => ?_) hturn
        rw [hd] at ht
        obtain ⟨ht', hkept⟩ := List.mem_filter.mp ht
        have hsame : t = s := h.constraints.uuid_inj ht' (hold s hs hturn) huuid
        exact of_decide_eq_true hkept (hsame ▸ hdel)

variable (event : ExternalAuthEvent)

/-- A handler that deletes does what is expected if and only if no request deletes, before its
turn, a subscription that the handler is to delete. -/
theorem deletesListed_iff (rowOrder : RowOrder) (hc : Constraints w.database) :
    ∃ listed, exec (listMobile none rowOrder event.userUuid event.tenantUuid) w =
        (.ok listed, w) ∧
      ∀ steps : List CleanupStep, (event.kind ≠ .deleted → 1 < listed.length) →
        steps.filterMap CleanupStep.own? = (toDelete event.kind listed).map (·.uuid) →
        (DeletesListed event.kind listed
            (exec (steps.forM (CleanupStep.run master (deleteTurn master))) w) ↔
          Undisturbed w.database steps) := by
  have hperm := rowOrder.perm (mobileOf event.userUuid event.tenantUuid w.database)
  set listed := rowOrder.arrange (mobileOf event.userUuid event.tenantUuid w.database)
  refine ⟨listed, exec_listMobile rowOrder event.userUuid_ne event.tenantUuid, ?_⟩
  intro steps _ hsteps
  have hmem : ∀ s ∈ listed, s ∈ w.database :=
    fun s hs => (List.mem_filter.mp (hperm.mem_iff.mp hs)).1
  have hn : listed.Nodup := hperm.nodup_iff.mpr (hc.1.of_map.filter _)
  have hsub : (toDelete event.kind listed).Sublist listed := toDelete_sublist event.kind listed
  have hkeys : (listed.map (·.uuid)).Nodup :=
    hn.map_on fun s hs t ht h => hc.uuid_inj (hmem s hs) (hmem t ht) h
  have hpending : AllPending w.database steps w := by
    refine ⟨hc, fun s hs => hs, fun uuid hturn => ?_, ?_⟩
    · rw [hsteps] at hturn
      obtain ⟨s, hs, rfl⟩ := List.mem_map.mp hturn
      exact ⟨s, hmem s (hsub.subset hs), rfl⟩
    · rw [hsteps]
      exact hkeys.sublist (hsub.map _)
  constructor
  · intro h
    by_contra hu
    obtain ⟨e, he⟩ := exec_steps_disturbed master hpending (fun s hs _ => hs) hu
    cases he.symm.trans h.returns
  · intro hu
    obtain ⟨w', hok, hd⟩ := exec_steps_undisturbed master hpending hu
    have hgone : ∀ s ∈ toDelete event.kind listed, s ∉ w'.database := by
      intro s hs hleft
      rw [hd, List.mem_filter, decide_eq_true_iff, CleanupStep.spares_all_iff, hsteps] at hleft
      exact hleft.2.1 (List.mem_map_of_mem hs)
    rw [hok]
    refine ⟨rfl, fun hkind => ?_, fun hkind => ?_⟩
    · rw [hkind] at hgone
      exact hgone
    · rw [toDelete_eq_tail hkind] at hgone
      cases hl : listed with
      | nil => exact Nat.zero_le 1
      | cons s rest =>
        rw [hl] at hgone
        have hnone : (rest.filter fun t => t ∈ w'.database) = [] :=
          List.filter_eq_nil_iff.mpr fun t ht h => hgone t ht (of_decide_eq_true h)
        rw [List.filter_cons, hnone]
        split_ifs
        · exact Nat.le_refl 1
        · exact Nat.zero_le 1

end Turns

def mobileWorld : World :=
  ⟨["a", "b", "c"].map fun uuid => MobileService.created uuid
    "2f9ac4a6-1f6b-4a1e-8d0c-6f2b1f0c7d11" "6c6d3b6c-58cb-4f5c-9a0e-0f1f0c1f7a03",
    .init "headers", [], []⟩

/-- The kept subscription and one that is already deleted are deleted by requests. -/
theorem deletesListed_iff_updated :
    let event := ExternalAuthEvent.ofMobile .updated
    let steps : List CleanupStep :=
      [.own "b", .foreign ⟨"b", [], none⟩, .foreign ⟨"a", [], none⟩, .own "c"]
    DeletesListed event.kind mobileWorld.database
      (exec (steps.forM (CleanupStep.run "master" (MobileService.deleteTurn "master")))
        mobileWorld) := by
  intro event steps
  have hlist : exec (MobileService.listMobile none ⟨id, fun rows => .refl rows⟩ event.userUuid
      event.tenantUuid) mobileWorld = (.ok mobileWorld.database, mobileWorld) := by
    rfl
  obtain ⟨listed, hok, h⟩ := deletesListed_iff "master" (w := mobileWorld)
    event ⟨id, fun rows => .refl rows⟩ (by decide)
  cases hlist.symm.trans hok
  refine (h steps (by decide) (by decide)).mpr ?_
  simp only [steps, Undisturbed, and_true]
  decide

/-- A subscription deleted before its turn: the others are left behind. -/
theorem deletesListed_fails_stale :
    let result := fun steps : List CleanupStep =>
      exec (steps.forM (CleanupStep.run "master" (MobileService.deleteTurn "master"))) mobileWorld
    let deletedSteps : List CleanupStep :=
      [.foreign ⟨"a", [], none⟩, .own "a", .own "b", .own "c"]
    let updatedSteps : List CleanupStep := [.foreign ⟨"b", [], none⟩, .own "b", .own "c"]
    (result deletedSteps).1 = .error (.noSuchSubscription "a") ∧
      (result deletedSteps).2.database.map (·.uuid) = ["b", "c"] ∧
      ¬ DeletesListed .deleted mobileWorld.database (result deletedSteps) ∧
      (result updatedSteps).1 = .error (.noSuchSubscription "b") ∧
      (result updatedSteps).2.database.map (·.uuid) = ["a", "c"] ∧
      ¬ DeletesListed .updated mobileWorld.database (result updatedSteps) := by
  intro result deletedSteps updatedSteps
  have hdeleted : (result deletedSteps).1 = .error (.noSuchSubscription "a") := rfl
  have hupdated : (result updatedSteps).1 = .error (.noSuchSubscription "b") := rfl
  refine ⟨hdeleted, by decide, fun h => ?_, hupdated, by decide, fun h => ?_⟩
  · cases hdeleted.symm.trans h.returns
  · cases hupdated.symm.trans h.returns

end WazoWebhookd

import WazoWebhookd.Subscription.Cleanup

/-! The removal of the subscriptions of a deleted user or tenant while requests delete
subscriptions too, each deletion being one step. -/
namespace WazoWebhookd
open Failing SubscriptionService

structure DeleteRequest where
  uuid : String
  ownerTenantUuids : List String
  ownerUserUuid : Option String

def DeleteRequest.Deletes (request : DeleteRequest) (s : Subscription) : Prop :=
  s.uuid = request.uuid ∧ Visible request.ownerTenantUuids request.ownerUserUuid s

instance (request : DeleteRequest) (s : Subscription) : Decidable (request.Deletes s) :=
  inferInstanceAs (Decidable (_ ∧ _))

/-- A turn of a loop that deletes, or a deletion by a request in between. -/
inductive CleanupStep
  | foreign (request : DeleteRequest)
  | own (uuid : String)

namespace CleanupStep

def request? : CleanupStep → Option DeleteRequest
  | .foreign request => some request
  | .own _ => none

def own? : CleanupStep → Option String
  | .foreign _ => none
  | .own uuid => some uuid

/-- The exception of a request goes to its client, that of a turn ends the loop. -/
def run (master : String) (turn : String → ServiceM Unit) : CleanupStep → ServiceM Unit
  | .foreign request =>
    tryCatch (delete master none request.uuid request.ownerTenantUuids request.ownerUserUuid)
      fun _ => pure ()
  | .own uuid => turn uuid

/-- The rows a step leaves. -/
def Spares (s : Subscription) : CleanupStep → Prop
  | .foreign request => ¬ request.Deletes s
  | .own uuid => ¬ s.uuid = uuid

instance (s : Subscription) (step : CleanupStep) : Decidable (step.Spares s) :=
  match step with
  | .foreign request => inferInstanceAs (Decidable (¬ request.Deletes s))
  | .own uuid => inferInstanceAs (Decidable (¬ s.uuid = uuid))

theorem spares_all_iff (steps : List CleanupStep) (s : Subscription) :
    (∀ step ∈ steps, step.Spares s) ↔ s.uuid ∉ steps.filterMap own? ∧
      ∀ request ∈ steps.filterMap request?, ¬ request.Deletes s := by
  induction steps with
  | nil => simp
  | cons step rest ih =>
    rw [List.forall_mem_cons, ih]
    cases step with
    | foreign request =>
      change (¬ request.Deletes s ∧ _) ↔ s.uuid ∉ rest.filterMap own? ∧
        ∀ request' ∈ request :: rest.filterMap request?, ¬ request'.Deletes s
      rw [List.forall_mem_cons, and_left_comm]
    | own uuid =>
      change (¬ s.uuid = uuid ∧ _) ↔ s.uuid ∉ uuid :: rest.filterMap own? ∧ _
      rw [List.mem_cons, not_or, and_assoc]
      rfl

/-- What the turns of the loop add up to, each seen by the states before and after it. -/
def ownEffects {β : Type} (master : String) (turn : String → ServiceM Unit)
    (effect : World → World → List β) : List CleanupStep → World → List β
  | [], _ => []
  | step :: rest, w =>
    let w' := (exec (step.run master turn) w).2
    match step with
    | .foreign _ => ownEffects master turn effect rest w'
    | .own _ => effect w w' ++ ownEffects master turn effect rest w'

end CleanupStep

def appended {β : Type} (log : World → List β) (w w' : World) : List β :=
  (log w').drop (log w).length

def removed (w w' : World) : List Subscription := w.database.filter fun s => s ∉ w'.database

theorem appended_of_eq {β : Type} {log : World → List β} {w w' : World} {items : List β}
    (h : log w' = log w ++ items) : appended log w w' = items := by
  rw [appended, h, List.drop_left]

section Steps
variable (master : String) {w : World}

theorem removed_of_filter {p : Subscription → Bool} {w' : World}
    (h : w'.database = w.database.filter p) :
    removed w w' = w.database.filter fun s => !p s := by
  rw [removed, h]
  refine List.filter_congr fun s hs => ?_
  rw [Bool.eq_iff_iff, decide_eq_true_iff, List.mem_filter, Bool.not_eq_true']
  simp [hs]

theorem filter_uuid_eq {database : List Subscription} (hc : Constraints database)
    {s : Subscription} (hs : s ∈ database) :
    (database.filter fun t => t.uuid = s.uuid) = [s] := by
  refine List.perm_singleton.mp ((List.perm_ext_iff_of_nodup (hc.1.of_map.filter _)
    (List.nodup_singleton s)).mpr fun t => ?_)
  rw [List.mem_filter, decide_eq_true_iff, List.mem_singleton]
  constructor
  · exact fun h => hc.uuid_inj h.1 hs h.2
  · rintro rfl
    exact ⟨hs, rfl⟩

theorem exec_deletePresent_logs (hc : Constraints w.database) (uuid : String) :
    ∃ w', exec (deletePresent master none uuid) w = (.ok (), w') ∧
      w'.database = (w.database.filter fun t => ¬ t.uuid = uuid) ∧
      w'.pubsubLog = w.pubsubLog ++ (w.database.filter fun t => t.uuid = uuid).map .deleted ∧
      w'.busLog = w.busLog ++
        (w.database.filter fun t => t.uuid = uuid).map SubscriptionNotifier.deleted := by
  by_cases hpresent : ∃ s ∈ w.database, s.uuid = uuid
  · obtain ⟨s, hs, rfl⟩ := hpresent
    have hdelete : exec (delete master none s.uuid [] none) w =
        outcome master none w (.deleted s) () :=
      exec_delete_announced (find_self hc hs ⟨by simp, by simp⟩) nofun
    unfold deletePresent
    rw [exec_tryCatch, hdelete, filter_uuid_eq hc hs]
    exact ⟨_, rfl, rfl, rfl, rfl⟩
  · have habsent : ∀ t ∈ w.database, ¬ t.uuid = uuid :=
      fun t ht huuid => hpresent ⟨t, ht, huuid⟩
    have hnone : (w.database.filter fun t => t.uuid = uuid) = [] :=
      List.filter_eq_nil_iff.mpr fun t ht h => habsent t ht (of_decide_eq_true h)
    rw [hnone]
    refine ⟨w, exec_deletePresent_absent master habsent, ?_, by simp, by simp⟩
    exact (List.filter_eq_self.mpr fun t ht => decide_eq_true (habsent t ht)).symm

theorem exec_foreign (hc : Constraints w.database) (turn : String → ServiceM Unit)
    (request : DeleteRequest) :
    ∃ w', exec ((CleanupStep.foreign request).run master turn) w = (.ok (), w') ∧
      w'.database = w.database.filter fun t => ¬ request.Deletes t := by
  unfold CleanupStep.run
  cases hfind : find w.database request.uuid request.ownerTenantUuids request.ownerUserUuid with
  | none =>
    rw [exec_tryCatch, exec_delete_not_found master (.inl hfind)]
    have hspared : ∀ t ∈ w.database, ¬ request.Deletes t :=
      fun t ht hd => List.find?_eq_none.mp hfind t ht (decide_eq_true hd)
    exact ⟨w, rfl, (List.filter_eq_self.mpr fun t ht => decide_eq_true (hspared t ht)).symm⟩
  | some s =>
    obtain ⟨hs, huuid, hv⟩ := mem_of_find hfind
    have hdelete : exec (delete master none request.uuid request.ownerTenantUuids
        request.ownerUserUuid) w = outcome master none w (.deleted s) () :=
      exec_delete_announced hfind nofun
    rw [exec_tryCatch, hdelete]
    refine ⟨_, rfl, List.filter_congr fun t ht => ?_⟩
    rw [decide_eq_decide, not_iff_not, DeleteRequest.Deletes]
    constructor
    · intro h
      exact ⟨h.trans huuid, hc.uuid_inj ht hs h ▸ hv⟩
    · exact fun h => h.1.trans huuid.symm

theorem exec_cleanupStep (hc : Constraints w.database) (step : CleanupStep) :
    ∃ w', exec (step.run master (deletePresent master none)) w = (.ok (), w') ∧
      w'.database = w.database.filter fun t => step.Spares t := by
  cases step with
  | foreign request => exact exec_foreign master hc _ request
  | own uuid =>
    obtain ⟨w', hok, hd, -⟩ := exec_deletePresent_logs master hc uuid
    exact ⟨w', hok, hd⟩

theorem exec_cleanupSteps (hc : Constraints w.database) (steps : List CleanupStep) :
    ∃ w', exec (steps.forM (CleanupStep.run master (deletePresent master none))) w =
        (.ok (), w') ∧
      w'.database = w.database.filter fun t => ∀ step ∈ steps, step.Spares t := by
  obtain ⟨w', hok, hd⟩ := exec_forM_ok World.database
    (fun database step => database.filter fun t => step.Spares t) (J := Constraints)
    (fun step _ database hJ => hJ.filter _)
    (fun step _ w hJ => exec_cleanupStep master (w := w) hJ step) hc
  exact ⟨w', hok, hd.trans (KeyedList.foldl_filter _ _ _)⟩

/-- The turns notify and announce what they remove, each row once. -/
theorem ownEffects_deletePresent (hc : Constraints w.database) (steps : List CleanupStep) :
    let turn := deletePresent master none
    let gone := CleanupStep.ownEffects master turn removed steps w
    CleanupStep.ownEffects master turn (appended World.pubsubLog) steps w =
        gone.map .deleted ∧
      CleanupStep.ownEffects master turn (appended World.busLog) steps w =
        gone.map SubscriptionNotifier.deleted ∧
      gone.Nodup ∧ ∀ s ∈ gone, s ∈ w.database ∧ s.uuid ∈ steps.filterMap CleanupStep.own? := by
  intro turn
  induction steps generalizing w with
  | nil => exact ⟨rfl, rfl, List.nodup_nil, by simp [CleanupStep.ownEffects]⟩
  | cons step rest ih =>
    cases step with
    | foreign request =>
      obtain ⟨w', hok, hd⟩ := exec_foreign master hc turn request
      have hw' : (exec ((CleanupStep.foreign request).run master turn) w).2 = w' := by rw [hok]
      obtain ⟨hpubsub, hbus, hn, hmem⟩ := ih (w := w') (hd ▸ hc.filter _)
      simp only [CleanupStep.ownEffects, hw']
      refine ⟨hpubsub, hbus, hn, fun s hs => ?_⟩
      have hold : s ∈ w'.database := (hmem s hs).1
      rw [hd] at hold
      exact ⟨(List.mem_filter.mp hold).1, (hmem s hs).2⟩
    | own uuid =>
      obtain ⟨w', hok, hd, hpub, hann⟩ := exec_deletePresent_logs master hc uuid
      have hw' : (exec ((CleanupStep.own uuid).run master turn) w).2 = w' := by
        change (exec (deletePresent master none uuid) w).2 = w'
        rw [hok]
      have hremoved : removed w w' = w.database.filter fun t => t.uuid = uuid := by
        rw [removed_of_filter hd]
        refine List.filter_congr fun t _ => ?_
        simp
      obtain ⟨hpubsub, hbus, hn, hmem⟩ := ih (w := w') (hd ▸ hc.filter _)
      simp only [CleanupStep.ownEffects, hw', hremoved, appended_of_eq hpub, appended_of_eq hann]
      have hlater : ∀ s ∈ CleanupStep.ownEffects master turn removed rest w',
          s ∈ w.database ∧ ¬ s.uuid = uuid := by
        intro s hs
        have hold : s ∈ w'.database := (hmem s hs).1
        rw [hd] at hold
        exact ⟨(List.mem_filter.mp hold).1, of_decide_eq_true (List.mem_filter.mp hold).2⟩
      refine ⟨by rw [hpubsub, List.map_append], by rw [hbus, List.map_append], ?_, ?_⟩
      · refine (hc.1.of_map.filter _).append hn fun s hs hs' => ?_
        exact (hlater s hs').2 (of_decide_eq_true (List.mem_filter.mp hs).2)
      · intro s hs
        rcases List.mem_append.mp hs with hnow | hrest
        · obtain ⟨hold, huuid⟩ := List.mem_filter.mp hnow
          exact ⟨hold, of_decide_eq_true huuid ▸ List.mem_cons_self⟩
        · exact ⟨(hlater s hrest).1, List.mem_cons_of_mem uuid (hmem s hrest).2⟩

end Steps

/-- The listing of a removal, and what requests delete meanwhile. -/
def SubscriptionService.listed (master : String) (iteration : SetIteration)
    (between : List DeleteRequest) : AuthEvent → ServiceM (List String)
  | .tenantDeleted tenantUuid => do
    let subscriptions ← SubscriptionService.list none [tenantUuid] none none ∅
    (between.map .foreign).forM (CleanupStep.run master (deletePresent master none))
    pure (subscriptions.map (·.uuid))
  | .userDeleted userUuid => do
    let owned ← SubscriptionService.list none [] (some userUuid) none ∅
    (between.map .foreign).forM (CleanupStep.run master (deletePresent master none))
    let listened ← SubscriptionService.list none [] none (some userUuid) ∅
    pure (iteration.order ((owned ++ listened).map (·.uuid)).toFinset)

section Removal
variable (master : String) (iteration : SetIteration) {w : World} {event : AuthEvent}

theorem forM_own (uuids : List String) (turn : String → ServiceM Unit) :
    (uuids.map .own).forM (CleanupStep.run master turn) = uuids.forM turn :=
  List.forM_map ..

/-- With no request in between, the listing and the turns are the handler. -/
theorem onDeletedEvent_eq (event : AuthEvent) :
    onDeletedEvent master none iteration event =
      listed master iteration [] event >>= fun uuids =>
        (uuids.map .own).forM (CleanupStep.run master (deletePresent master none)) := by
  simp only [forM_own]
  cases event with
  | tenantDeleted tenantUuid =>
    simp only [onDeletedEvent, removeTenant, listed, bind_assoc, pure_bind]
    exact bind_congr fun subscriptions => (List.forM_map ..).symm
  | userDeleted userUuid =>
    simp only [onDeletedEvent, removeUser, listed, bind_assoc, pure_bind]
    rfl

theorem exec_foreigns (hc : Constraints w.database) (requests : List DeleteRequest) :
    ∃ w', exec ((requests.map .foreign).forM
        (CleanupStep.run master (deletePresent master none))) w = (.ok (), w') ∧
      w'.database = w.database.filter fun s => ∀ request ∈ requests, ¬ request.Deletes s := by
  obtain ⟨w', hok, hd⟩ := exec_cleanupSteps master hc (requests.map .foreign)
  refine ⟨w', hok, ?_⟩
  rw [hd]
  refine List.filter_congr fun s _ => ?_
  rw [decide_eq_decide, List.forall_mem_map]
  rfl

/-- The keys listed are those of the rows in question, some of which may be gone. -/
theorem exec_listed (hc : Constraints w.database) (hne : event ≠ .userDeleted "")
    (between : List DeleteRequest) :
    ∃ uuids w', exec (listed master iteration between event) w = (.ok uuids, w') ∧
      (w'.database = w.database.filter fun s => ∀ request ∈ between, ¬ request.Deletes s) ∧
      (∀ uuid ∈ uuids, ∃ s ∈ w.database, s.uuid = uuid ∧ event.Concerns s) ∧
      ∀ s ∈ w'.database, event.Concerns s → s.uuid ∈ uuids := by
  obtain ⟨w', hforeign, hd⟩ := exec_foreigns master hc between
  have hold : ∀ s ∈ w'.database, s ∈ w.database := by
    rw [hd]
    exact fun s hs => (List.mem_filter.mp hs).1
  cases event with
  | tenantDeleted tenantUuid =>
    obtain ⟨subscriptions, hlist, hmem⟩ := exec_list_present (w := w) [tenantUuid] none none
    refine ⟨subscriptions.map (·.uuid), w', ?_, hd, ?_, ?_⟩
    · unfold listed
      rw [exec_bind_of_ok hlist, exec_bind_of_ok hforeign, exec_pure]
    · intro uuid huuid
      obtain ⟨s, hs, rfl⟩ := List.mem_map.mp huuid
      obtain ⟨hw, hv, -⟩ := (hmem s).mp hs
      exact ⟨s, hw, rfl, List.mem_singleton.mp (hv.1 (List.cons_ne_nil _ _))⟩
    · intro s hs hconcerns
      have hv : Visible [tenantUuid] none s :=
        ⟨fun _ => List.mem_singleton.mpr hconcerns, by simp⟩
      exact List.mem_map_of_mem ((hmem s).mpr ⟨hold s hs, hv, by simp⟩)
  | userDeleted userUuid =>
    have htruthy : truthy (some userUuid) = some userUuid :=
      truthy_of_ne fun h => hne (congrArg AuthEvent.userDeleted (Option.some.inj h))
    have hset : (truthy (some userUuid)).isSome := Option.isSome_iff_exists.mpr ⟨_, htruthy⟩
    obtain ⟨owned, howned, hmemOwned⟩ := exec_list_present (w := w) [] (some userUuid) none
    obtain ⟨listened, hlistened, hmemListened⟩ :=
      exec_list_present (w := w') [] none (some userUuid)
    refine ⟨iteration.order ((owned ++ listened).map (·.uuid)).toFinset, w', ?_, hd, ?_, ?_⟩
    · unfold listed
      rw [exec_bind_of_ok howned, exec_bind_of_ok hforeign, exec_bind_of_ok hlistened, exec_pure]
    · intro uuid huuid
      rw [iteration.mem_order, List.mem_toFinset] at huuid
      obtain ⟨s, hs, rfl⟩ := List.mem_map.mp huuid
      rcases List.mem_append.mp hs with howner | hevents
      · obtain ⟨hw, hv, -⟩ := (hmemOwned s).mp howner
        exact ⟨s, hw, rfl, .inl ((hv.2 hset).trans htruthy)⟩
      · obtain ⟨hw', -, hu⟩ := (hmemListened s).mp hevents
        exact ⟨s, hold s hw', rfl, .inr ((hu hset).trans htruthy)⟩
    · intro s hs hconcerns
      rw [iteration.mem_order, List.mem_toFinset]
      refine List.mem_map_of_mem (List.mem_append.mpr ?_)
      rcases hconcerns with howner | hevents
      · exact .inl ((hmemOwned s).mpr ⟨hold s hs, ⟨by simp, fun _ => howner.trans htruthy.symm⟩,
          by simp⟩)
      · exact .inr ((hmemListened s).mpr ⟨hs, ⟨by simp, by simp⟩,
          fun _ => hevents.trans htruthy.symm⟩)

/-- What a removal comes to that starts in `w`, has listed in `w'`, and goes on with `steps`. -/
structure Removes (event : AuthEvent) (between : List DeleteRequest) (w w' : World)
    (steps : List CleanupStep) : Prop where
  finishes : ∃ final, exec (steps.forM (CleanupStep.run master (deletePresent master none))) w' =
      (.ok (), final) ∧
    (∀ s ∈ final.database, ¬ event.Concerns s) ∧
    ∀ s, ¬ event.Concerns s → (s ∈ final.database ↔ s ∈ w.database ∧
      ∀ request ∈ between ++ steps.filterMap CleanupStep.request?, ¬ request.Deletes s)
  notified : CleanupStep.ownEffects master (deletePresent master none)
      (appended World.pubsubLog) steps w' =
    (CleanupStep.ownEffects master (deletePresent master none) removed steps w').map .deleted
  announced : CleanupStep.ownEffects master (deletePresent master none)
      (appended World.busLog) steps w' =
    (CleanupStep.ownEffects master (deletePresent master none) removed steps w').map
      SubscriptionNotifier.deleted
  once : (CleanupStep.ownEffects master (deletePresent master none) removed steps w').Nodup
  removes : ∀ s ∈ CleanupStep.ownEffects master (deletePresent master none) removed steps w',
    s ∈ w.database ∧ event.Concerns s

/-- Whatever requests delete between the listing and each turn, the removal ends, with none of
the rows in question left and each row it removes notified once. -/
theorem removal_tolerates_deletions (hc : Constraints w.database) (hne : event ≠ .userDeleted "")
    (between : List DeleteRequest) :
    ∃ uuids w', exec (listed master iteration between event) w = (.ok uuids, w') ∧
      ∀ steps : List CleanupStep, steps.filterMap CleanupStep.own? = uuids →
        Removes master event between w w' steps := by
  obtain ⟨uuids, w', hlisted, hd, hconcerns, hcomplete⟩ :=
    exec_listed master iteration hc hne between
  refine ⟨uuids, w', hlisted, ?_⟩
  rintro steps rfl
  have hold : ∀ s ∈ w'.database, s ∈ w.database := by
    rw [hd]
    exact fun s hs => (List.mem_filter.mp hs).1
  have hc' : Constraints w'.database := hd ▸ hc.filter _
  obtain ⟨final, hok, hfinal⟩ := exec_cleanupSteps master hc' steps
  obtain ⟨hpubsub, hbus, hn, hmem⟩ := ownEffects_deletePresent master hc' steps
  have howns : ∀ s ∈ w.database, s.uuid ∈ steps.filterMap CleanupStep.own? → event.Concerns s := by
    intro s hs huuid
    obtain ⟨t, ht, hkey, htc⟩ := hconcerns _ huuid
    exact hc.uuid_inj ht hs hkey ▸ htc
  refine ⟨⟨final, hok, ?_, ?_⟩, hpubsub, hbus, hn, fun s hs => ?_⟩
  · intro s hs hsc
    rw [hfinal] at hs
    obtain ⟨hs', hspared⟩ := List.mem_filter.mp hs
    rw [decide_eq_true_iff, CleanupStep.spares_all_iff] at hspared
    exact hspared.1 (hcomplete s hs' hsc)
  · intro s hsc
    rw [hfinal, hd, List.mem_filter, List.mem_filter, decide_eq_true_iff, decide_eq_true_iff,
      CleanupStep.spares_all_iff, List.forall_mem_append, and_assoc]
    refine and_congr_right fun hs => and_congr_right fun _ => and_iff_right fun huuid => ?_
    exact hsc (howns s hs huuid)
  · obtain ⟨hs', huuid⟩ := hmem s hs
    exact ⟨hold s hs', howns s (hold s hs') huuid⟩

end Removal

/-- Three rows of a user, of which requests delete one before its turn and one after it. -/
theorem removal_tolerates_deletions_user :
    let owned := { Subscription.blank "a" "tenant" with ownerUserUuid := some "user" }
    let listened := { Subscription.blank "b" "tenant" with eventsUserUuid := some "user" }
    let both := { owned with uuid := "c", eventsUserUuid := some "user" }
    let w : World := ⟨[both, owned, listened, .blank "d" "tenant"], .init "headers", [], []⟩
    let steps : List CleanupStep := [.own "a", .foreign ⟨"b", ["tenant"], none⟩, .own "b",
      .foreign ⟨"a", [], none⟩, .own "c"]
    ∃ w', Removes "master" (.userDeleted "user") [] w w' steps ∧
      CleanupStep.ownEffects "master" (deletePresent "master" none) removed steps w' =
        [owned, both] := by
  intro owned listened both w steps
  have hsort : SetIteration.sorted.order {"a", "b", "c"} = ["a", "b", "c"] := by
    have hfirst : ∀ uuid ∈ ({"b", "c"} : Finset String), "a" ≤ uuid := by decide
    have hsecond : ∀ uuid ∈ ({"c"} : Finset String), "b" ≤ uuid := by decide
    calc SetIteration.sorted.order {"a", "b", "c"}
      _ = "a" :: SetIteration.sorted.order {"b", "c"} :=
          Finset.sort_insert (· ≤ ·) hfirst (by decide)
      _ = "a" :: "b" :: SetIteration.sorted.order {"c"} :=
          congrArg ("a" :: ·) (Finset.sort_insert (· ≤ ·) hsecond (by decide))
      _ = ["a", "b", "c"] :=
          congrArg ("a" :: "b" :: ·) (Finset.sort_singleton (· ≤ ·) "c")
  have hset : (([both, owned] ++ [both, listened]).map (·.uuid)).toFinset = {"a", "b", "c"} := by
    decide
  have hlist : exec (listed "master" .sorted [] (.userDeleted "user")) w =
      (.ok ["a", "b", "c"], w) := by
    rw [← hsort, ← hset]
    rfl
  have hne : AuthEvent.userDeleted "user" ≠ .userDeleted "" := by decide
  obtain ⟨uuids, w', hok, h⟩ := removal_tolerates_deletions "master" .sorted (w := w)
    (by decide) hne []
  cases hlist.symm.trans hok
  exact ⟨w, h steps rfl, by decide⟩

end WazoWebhookd

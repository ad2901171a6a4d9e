import WazoWebhookd.Subscription.FreshRegistration
import WazoWebhookd.Subscription.Isolation

/-! An update of a subscription handled in one thread while another handles its deletion. -/
namespace WazoWebhookd
open Interleaving SubscriptionBusEventHandler

inductive Side
  | updater
  | deleter
  deriving DecidableEq

abbrev SideThread := Thread Action Notification

def sides (u d : SideThread) : Side → SideThread
  | .updater => u
  | .deleter => d

def updateAndDelete (h : SubscriptionBusEventHandler) (s' : Subscription) (order : List String)
    (s : Subscription) : Threads Side :=
  ⟨h, sides ⟨[], [.updated s' order]⟩ ⟨[], [.deleted s]⟩⟩

/-- Neither the registry nor the table knows the subscription. -/
def SubscriptionBusEventHandler.Forgets (h : SubscriptionBusEventHandler) (uuid : String) : Prop :=
  h.subscriptionCallbacks uuid = none ∧ ∀ e, h.entries uuid e = []

def stepsBeforeDelete (schedule : List Side) : ℕ := (schedule.takeWhile (· = .updater)).length

/-- The atomic steps of an update: the pop, the calls on the consumer and the store. -/
def updateSteps (master : String) (h : SubscriptionBusEventHandler) (s' : Subscription)
    (order : List String) : ℕ :=
  match h.start master (.updated s' order) with
  | .ok p => p.2.length + 1
  | .error _ => 1

@[simp] theorem update_sides_updater (u d t : SideThread) :
    Function.update (sides u d) .updater t = sides t d := by
  funext i
  cases i <;> rfl

@[simp] theorem update_sides_deleter (u d t : SideThread) :
    Function.update (sides u d) .deleter t = sides u t := by
  funext i
  cases i <;> rfl

section Race
variable {master : String} {h : SubscriptionBusEventHandler} {s s' : Subscription}
  {order : List String}

theorem run_cons (σ : Threads Side) (i : Side) (schedule : List Side) :
    σ.run master (i :: schedule) = Threads.run master (σ.step act (start master) i) schedule :=
  rfl

/-- Once the deleter is done the updater runs to its end undisturbed. -/
theorem run_updater (actions : List Action) (schedule : List Side)
    (hidle : (Threads.run master ⟨h, sides ⟨actions, []⟩ ⟨[], []⟩⟩ schedule).Idle) :
    (Threads.run master ⟨h, sides ⟨actions, []⟩ ⟨[], []⟩⟩ schedule).shared =
      actions.foldl act h := by
  induction schedule generalizing h actions with
  | nil =>
    have hu : (⟨actions, []⟩ : SideThread) = ⟨[], []⟩ := hidle .updater
    cases hu
    rfl
  | cons i schedule ih =>
    rw [run_cons] at hidle ⊢
    cases i with
    | deleter =>
      rw [System.step_of_idle rfl] at hidle ⊢
      exact ih actions hidle
    | updater =>
      cases actions with
      | nil =>
        rw [System.step_of_idle rfl] at hidle ⊢
        exact ih [] hidle
      | cons a actions =>
        rw [System.step_of_action rfl, update_sides_updater] at hidle ⊢
        exact ih actions hidle

/-- With the registry entry gone, a pending update fails and only the deleter goes on. -/
theorem run_deleter (calls : List BusCall) {u : SideThread}
    (hu : u = ⟨[], []⟩ ∨ u = ⟨[], [.updated s' order]⟩)
    (hr : h.subscriptionCallbacks s'.uuid = none) (schedule : List Side)
    (hidle : (Threads.run master ⟨h, sides u ⟨calls.map .bus, []⟩⟩ schedule).Idle) :
    (Threads.run master ⟨h, sides u ⟨calls.map .bus, []⟩⟩ schedule).shared =
      (calls.map Action.bus).foldl act h := by
  induction schedule generalizing h calls u with
  | nil =>
    have hd : (⟨calls.map .bus, []⟩ : SideThread) = ⟨[], []⟩ := hidle .deleter
    have hcalls : calls.map Action.bus = [] := congrArg Thread.actions hd
    rw [hcalls]
    rfl
  | cons i schedule ih =>
    rw [run_cons] at hidle ⊢
    cases i with
    | deleter =>
      cases calls with
      | nil =>
        rw [System.step_of_idle rfl] at hidle ⊢
        exact ih [] hu hr hidle
      | cons call calls =>
        rw [System.step_of_action rfl, update_sides_deleter] at hidle ⊢
        exact ih calls hu hr hidle
    | updater =>
      rcases hu with rfl | rfl
      · rw [System.step_of_idle rfl] at hidle ⊢
        exact ih calls (Or.inl rfl) hr hidle
      · have herr : h.start master (.updated s' order) = .error .keyError := by
          rw [start, updateStart, hr]
        rw [System.step_of_error rfl herr, update_sides_updater] at hidle ⊢
        exact ih calls (Or.inl rfl) hr hidle

theorem unregisterStart_spec (h : SubscriptionBusEventHandler) (s : Subscription) :
    ∃ h', ∃ calls : List BusCall, h.unregisterStart s = (h', calls.map .bus) ∧
      h'.subscriptionCallbacks s.uuid = none := by
  unfold unregisterStart
  cases hr : h.subscriptionCallbacks s.uuid with
  | none => exact ⟨h, [], rfl, hr⟩
  | some row => exact ⟨_, _, rfl, Function.update_self _ _ _⟩

theorem updateStart_spec (master : String) {prev : CallbackRow}
    (hr : h.subscriptionCallbacks s.uuid = some prev) (order : List String) :
    ∃ h', ∃ calls : List BusCall, ∃ row,
      h.updateStart master s order = .ok (h', calls.map .bus ++ [.store s.uuid row]) ∧
      h'.subscriptionCallbacks s.uuid = none := by
  unfold updateStart
  rw [hr]
  exact ⟨_, _, _, rfl, Function.update_self _ _ _⟩

/-- A deletion that starts now, with no update in progress, is a plain one. -/
theorem run_delete {u : SideThread} (hu : u = ⟨[], []⟩ ∨ u = ⟨[], [.updated s' order]⟩)
    (hs : s'.uuid = s.uuid) (schedule : List Side)
    (hidle : (Threads.run master ⟨h, sides u ⟨[], [.deleted s]⟩⟩ (.deleter :: schedule)).Idle) :
    (Threads.run master ⟨h, sides u ⟨[], [.deleted s]⟩⟩ (.deleter :: schedule)).shared =
      h.unregister s := by
  obtain ⟨h', calls, hstart, hr⟩ := unregisterStart_spec h s
  have hok : h.start master (.deleted s) = .ok (h', calls.map .bus) := by
    rw [start, hstart]
  rw [run_cons, System.step_of_start rfl hok, update_sides_deleter] at hidle ⊢
  rw [run_deleter calls hu (hs ▸ hr) schedule hidle, unregister, hstart]
  rfl

theorem run_delete_after (hs : s'.uuid = s.uuid) (schedule : List Side)
    (hidle : (Threads.run master ⟨h, sides ⟨[], []⟩ ⟨[], [.deleted s]⟩⟩ schedule).Idle) :
    (Threads.run master ⟨h, sides ⟨[], []⟩ ⟨[], [.deleted s]⟩⟩ schedule).shared =
      h.unregister s := by
  induction schedule with
  | nil =>
    have hd : (⟨[], [.deleted s]⟩ : SideThread) = ⟨[], []⟩ := hidle .deleter
    cases hd
  | cons i schedule ih =>
    cases i with
    | deleter =>
      have hu : (⟨[], []⟩ : SideThread) = ⟨[], []⟩ ∨
        (⟨[], []⟩ : SideThread) = ⟨[], [.updated s' []]⟩ := Or.inl rfl
      exact run_delete hu hs schedule hidle
    | updater =>
      rw [run_cons, System.step_of_idle rfl] at hidle ⊢
      exact ih hidle

/-- A deletion that finds an update in progress does nothing; one that comes after the
store is a plain one. -/
theorem run_update_in_progress (hs : s'.uuid = s.uuid) (calls : List BusCall) (row : CallbackRow)
    (hr : h.subscriptionCallbacks s.uuid = none) (schedule : List Side)
    {actions : List Action} (ha : actions = calls.map .bus ++ [.store s.uuid row])
    (hidle : (Threads.run master ⟨h, sides ⟨actions, []⟩ ⟨[], [.deleted s]⟩⟩ schedule).Idle) :
    (Threads.run master ⟨h, sides ⟨actions, []⟩ ⟨[], [.deleted s]⟩⟩ schedule).shared =
      if actions.length ≤ stepsBeforeDelete schedule
      then (actions.foldl act h).unregister s else actions.foldl act h := by
  induction schedule generalizing h calls actions with
  | nil =>
    have hd : (⟨[], [.deleted s]⟩ : SideThread) = ⟨[], []⟩ := hidle .deleter
    cases hd
  | cons i schedule ih =>
    cases i with
    | deleter =>
      have hok : h.start master (.deleted s) = .ok (h, []) := by
        rw [start, unregisterStart, hr]
      have hpos : ¬ actions.length ≤ stepsBeforeDelete (.deleter :: schedule) := by
        rw [ha]
        simp [stepsBeforeDelete]
      rw [run_cons, System.step_of_start rfl hok, update_sides_deleter] at hidle ⊢
      rw [if_neg hpos, run_updater actions schedule hidle]
    | updater =>
      have hpos : stepsBeforeDelete (.updater :: schedule) = stepsBeforeDelete schedule + 1 := by
        simp [stepsBeforeDelete]
      rw [run_cons] at hidle ⊢
      cases calls with
      | nil =>
        subst ha
        rw [System.step_of_action rfl, update_sides_updater] at hidle ⊢
        rw [hpos, if_pos (by simp)]
        exact run_delete_after hs schedule hidle
      | cons call calls =>
        subst ha
        rw [System.step_of_action rfl, update_sides_updater] at hidle ⊢
        have hr' : (h.act (.bus call)).subscriptionCallbacks s.uuid = none := hr
        refine (ih calls hr' rfl hidle).trans ?_
        rw [hpos]
        simp

/-- Nothing of the subscription is left once both have finished exactly when the deleter's
access to the registry does not come between the two of the updater. -/
theorem deletion_final_iff (master : String) (hc : Consistent h) {prev : CallbackRow}
    (hr : h.subscriptionCallbacks s.uuid = some prev) (hs : s'.uuid = s.uuid)
    (hn : s'.events.Nodup) (ho : IsIteration order s'.events prev.events)
    (schedule : List Side)
    (hidle : (Threads.run master (updateAndDelete h s' order s) schedule).Idle) :
    (Threads.run master (updateAndDelete h s' order s) schedule).shared.Forgets s.uuid ↔
      stepsBeforeDelete schedule = 0 ∨
        updateSteps master h s' order ≤ stepsBeforeDelete schedule := by
  have hforget : ∀ {h : SubscriptionBusEventHandler}, Consistent h →
      (h.unregister s).Forgets s.uuid := by
    intro h hc
    refine ⟨?_, fun e => hc.entries_unregister e⟩
    rw [unregister_subscriptionCallbacks, if_pos rfl]
  unfold updateAndDelete at hidle ⊢
  cases schedule with
  | nil =>
    have hd : (⟨[], [.deleted s]⟩ : SideThread) = ⟨[], []⟩ := hidle .deleter
    cases hd
  | cons i schedule =>
    cases i with
    | deleter =>
      rw [run_delete (Or.inr rfl) hs schedule hidle]
      exact iff_of_true (hforget hc) (Or.inl rfl)
    | updater =>
      have hr' : h.subscriptionCallbacks s'.uuid = some prev := hs ▸ hr
      obtain ⟨h₁, calls, row, hstart, hnone⟩ := updateStart_spec master hr' order
      rw [hs] at hstart hnone
      set actions := calls.map Action.bus ++ [Action.store s.uuid row] with ha
      have hok : h.start master (.updated s' order) = .ok (h₁, actions) := hstart
      have hsteps : updateSteps master h s' order = actions.length + 1 := by
        rw [updateSteps, hok]
      have hpos : stepsBeforeDelete (.updater :: schedule) = stepsBeforeDelete schedule + 1 := by
        simp [stepsBeforeDelete]
      -- What the updater leaves is what the update leaves when it is handled alone.
      have hupdate : h.update master s' order = .ok (actions.foldl act h₁) := by
        rw [update, hstart]
        rfl
      have hc' : Consistent (actions.foldl act h₁) := hc.update master hr' ho hn hupdate
      have hkept : ¬ (actions.foldl act h₁).Forgets s.uuid := by
        intro hf
        have hrow := hf.1
        rw [ha, List.foldl_append] at hrow
        simp [act] at hrow
      rw [run_cons, System.step_of_start rfl hok, update_sides_updater] at hidle ⊢
      rw [run_update_in_progress hs calls row hnone schedule ha hidle, hsteps, hpos]
      by_cases hle : actions.length ≤ stepsBeforeDelete schedule
      · rw [if_pos hle]
        exact iff_of_true (hforget hc') (Or.inr (by omega))
      · rw [if_neg hle]
        exact iff_of_false hkept (by omega)

end Race

def voicemailRace : Threads Side :=
  updateAndDelete ((init "headers").register "master" voicemailSubscription) voicemailSubscription
    ["user_missed_call", globalVoicemailMessageCreated] voicemailSubscription

theorem consistent_voicemailRace : Consistent voicemailRace.shared :=
  (consistent_init "headers").register "master" (fun _ => rfl) (by decide)

/-- A deletion that waits for the end of the update is final. -/
theorem deletion_final_iff_update_first :
    (voicemailRace.run "master" (List.replicate 6 .updater ++
      List.replicate 3 .deleter)).shared.Forgets voicemailSubscription.uuid := by
  refine (deletion_final_iff "master" consistent_voicemailRace rfl rfl (by decide) (by decide)
    _ ?_).mpr (Or.inr (by decide))
  intro i
  cases i <;> decide

/-- A deletion handled between the pop and the store of an update is undone by the store. -/
theorem voicemailRace_not_forgotten :
    let σ := voicemailRace.run "master" ([.updater, .deleter] ++ List.replicate 5 .updater)
    Consistent voicemailRace.shared ∧
      (voicemailRace.shared.subscriptionCallbacks voicemailSubscription.uuid).isSome ∧
      σ.Idle ∧ ¬ σ.shared.Forgets voicemailSubscription.uuid := by
  refine ⟨consistent_voicemailRace, by decide, ?_, ?_⟩
  · intro i
    cases i <;> decide
  · intro h
    have hrow := h.1
    revert hrow
    decide

end WazoWebhookd

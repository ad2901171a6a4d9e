import WazoWebhookd.Subscription.FreshRegistration

/-! The startup registration, while another thread creates, updates and deletes
subscriptions. -/
namespace WazoWebhookd
open SubscriptionBusEventHandler

/-- `published` is what the other thread has published and not yet committed; `listed` is
what the startup has still to register, and `none` before its listing. -/
structure Startup where
  database : List Subscription
  handler : SubscriptionBusEventHandler
  published : Option Notification
  listed : Option (List Subscription)

inductive StartupStep
  | list (rows : List Subscription)
  | register
  | publish (n : Notification)
  | commit

namespace Startup

def init (exchangeType : String) (database : List Subscription) : Startup :=
  ⟨database, .init exchangeType, none, none⟩

def current (σ : Startup) : List Subscription :=
  match σ.published with
  | none => σ.database
  | some n => liveAfter σ.database n

/-- `propagates` tells whether the pubsub lets the exception of a subscriber through, in
which case the operation that publishes is rolled back. -/
def step (master : String) (propagates : Bool) (σ : Startup) : StartupStep → Startup
  | .list rows => { σ with listed := some rows }
  | .register =>
    match σ.listed with
    | some (s :: rest) =>
      { σ with handler := σ.handler.register master s, listed := some rest }
    | _ => σ
  | .publish n =>
    match σ.handler.handle master n with
    | .ok h => { σ with handler := h, published := some n }
    | .error _ => if propagates then σ else { σ with published := some n }
  | .commit => { σ with database := σ.current, published := none }

/-- A uuid that has not been used. -/
def Fresh (σ : Startup) (uuid : String) : Prop :=
  (∀ t ∈ σ.database, t.uuid ≠ uuid) ∧ (∀ t ∈ σ.listed.getD [], t.uuid ≠ uuid) ∧
    σ.handler.subscriptionCallbacks uuid = none

/-- The steps that can be taken: one listing, and one operation after the other. -/
def Valid (σ : Startup) : StartupStep → Prop
  | .list rows => σ.listed = none ∧ rows.Perm σ.database
  | .register => True
  | .publish (.created s) => σ.published = none ∧ s.events.Nodup ∧ σ.Fresh s.uuid
  | .publish (.updated s order) => σ.published = none ∧ s.events.Nodup ∧
      (∃ t ∈ σ.database, t.uuid = s.uuid) ∧
      ∀ prev, σ.handler.subscriptionCallbacks s.uuid = some prev →
        IsIteration order s.events prev.events
  | .publish (.deleted s) => σ.published = none ∧ ∃ t ∈ σ.database, t.uuid = s.uuid
  | .commit => True

def Finished (σ : Startup) : Prop := σ.listed = some [] ∧ σ.published = none

/-- Every row has its registry entry and its table entries, with its current data, and
nothing else has any. -/
structure Synced (σ : Startup) : Prop where
  live : ∀ s ∈ σ.database, ∃ row, σ.handler.subscriptionCallbacks s.uuid = some row ∧
    row.fn.subscription = dump s ∧
    ∀ e, (σ.handler.entries s.uuid e).map (·.handler) = if e ∈ s.events then [row.fn] else []
  deleted : ∀ uuid, (∀ s ∈ σ.database, s.uuid ≠ uuid) →
    σ.handler.subscriptionCallbacks uuid = none ∧ ∀ e, σ.handler.entries uuid e = []

/-- The startup registers a subscription that is not registered yet and has not been
updated or deleted since the listing. -/
def RegistersCurrent (σ : Startup) : StartupStep → Prop
  | .register => ∀ s rest, σ.listed = some (s :: rest) →
      ∃ t ∈ σ.current, dump t = dump s ∧
        (σ.handler.subscriptionCallbacks s.uuid = none ∨ s.events = [])
  | _ => True

/-- What the constraints of the database give of all rows. -/
structure WellFormed (σ : Startup) : Prop where
  database_uuid : (σ.database.map (·.uuid)).Nodup
  current_uuid : (σ.current.map (·.uuid)).Nodup
  database_events : ∀ s ∈ σ.database, s.events.Nodup
  current_events : ∀ s ∈ σ.current, s.events.Nodup
  listed_events : ∀ rows, σ.listed = some rows → ∀ s ∈ rows, s.events.Nodup

/-- The startup will still register the subscription. -/
def Waiting (σ : Startup) (uuid : String) : Prop :=
  match σ.listed with
  | none => ∃ s ∈ σ.database, s.uuid = uuid
  | some rows => ∃ s ∈ rows, s.uuid = uuid

/-- What holds before the end: the current subscriptions are registered with their data, or
wait for the startup. -/
structure Covered (σ : Startup) : Prop where
  consistent : Consistent σ.handler
  registered : ∀ s ∈ σ.current, ∀ row, σ.handler.subscriptionCallbacks s.uuid = some row →
    row.fn.subscription = dump s ∧ row.events = s.events
  waiting : ∀ s ∈ σ.current, σ.handler.subscriptionCallbacks s.uuid = none → σ.Waiting s.uuid
  live : ∀ uuid row, σ.handler.subscriptionCallbacks uuid = some row →
    ∃ s ∈ σ.current, s.uuid = uuid

theorem Covered.synced {σ : Startup} (hc : σ.Covered) (hf : σ.Finished) : σ.Synced := by
  obtain ⟨hlisted, hpublished⟩ := hf
  have hcurrent : σ.current = σ.database := by
    rw [current, hpublished]
  constructor
  · intro s hs
    have hs' : s ∈ σ.current := hcurrent ▸ hs
    cases hr : σ.handler.subscriptionCallbacks s.uuid with
    | none =>
      have hw := hc.waiting s hs' hr
      rw [Waiting, hlisted] at hw
      obtain ⟨t, ht, -⟩ := hw
      cases ht
    | some row =>
      obtain ⟨hd, he⟩ := hc.registered s hs' row hr
      refine ⟨row, rfl, hd, ?_⟩
      intro e
      obtain ⟨b, hb⟩ := hc.consistent.entries_some hr e
      rw [hb, rowEntries, he]
      split_ifs <;> rfl
  · intro uuid hu
    have hnone : σ.handler.subscriptionCallbacks uuid = none := by
      cases hr : σ.handler.subscriptionCallbacks uuid with
      | none => rfl
      | some row =>
        obtain ⟨s, hs, hsu⟩ := hc.live uuid row hr
        exact absurd hsu (hu s (hcurrent ▸ hs))
    exact ⟨hnone, hc.consistent.entries_none hnone⟩

theorem current_of_none {σ : Startup} (h : σ.published = none) : σ.current = σ.database := by
  rw [current, h]

section Step
variable (master : String) (propagates : Bool) {σ : Startup}

/-- What publishing does: the handler runs to its end or finds no row, and then either the
operation is given up or it goes on. -/
theorem step_publish (σ : Startup) (n : Notification) :
    (∃ h, σ.handler.handle master n = .ok h ∧
      σ.step master propagates (.publish n) = { σ with handler := h, published := some n }) ∨
    ((∃ s order, n = .updated s order ∧ σ.handler.subscriptionCallbacks s.uuid = none) ∧
      (σ.step master propagates (.publish n) = σ ∨
        σ.step master propagates (.publish n) = { σ with published := some n })) := by
  cases hh : σ.handler.handle master n with
  | ok h =>
    left
    exact ⟨h, rfl, by rw [step, hh]⟩
  | error e =>
    right
    constructor
    · cases n with
      | created s => cases hh
      | deleted s => cases hh
      | updated s order =>
        refine ⟨s, order, rfl, ?_⟩
        cases hr : σ.handler.subscriptionCallbacks s.uuid with
        | none => rfl
        | some prev =>
          rw [handle, update_of_some hr] at hh
          cases hh
    · rw [step, hh]
      cases propagates with
      | true => exact Or.inl rfl
      | false => exact Or.inr rfl

theorem WellFormed.published (hw : σ.WellFormed) {n : Notification} (hv : σ.Valid (.publish n))
    (h : SubscriptionBusEventHandler) :
    WellFormed { σ with handler := h, published := some n } where
  database_uuid := hw.database_uuid
  database_events := hw.database_events
  listed_events := hw.listed_events
  current_uuid := by
    refine liveAfter_uuid_nodup hw.database_uuid n ?_
    rintro s rfl
    exact hv.2.2.1
  current_events := by
    intro s hs
    cases n with
    | created t =>
      rcases List.mem_append.mp hs with hold | hnew
      · exact hw.database_events s hold
      · rw [List.mem_singleton.mp hnew]
        exact hv.2.1
    | updated t order =>
      rcases (mem_liveAfter_updated order).mp hs with ⟨rfl, -⟩ | ⟨hold, -⟩
      · exact hv.2.1
      · exact hw.database_events s hold
    | deleted t => exact hw.database_events s (mem_liveAfter_deleted.mp hs).1

theorem WellFormed.step (hw : σ.WellFormed) {l : StartupStep} (hv : σ.Valid l) :
    (σ.step master propagates l).WellFormed := by
  cases l with
  | list rows =>
    refine ⟨hw.database_uuid, hw.current_uuid, hw.database_events, hw.current_events, ?_⟩
    rintro rows' ⟨⟩ s hs
    exact hw.database_events s (hv.2.mem_iff.mp hs)
  | register =>
    rw [Startup.step]
    split
    · next s rest hl =>
      refine ⟨hw.database_uuid, hw.current_uuid, hw.database_events, hw.current_events, ?_⟩
      rintro rows' ⟨⟩ t ht
      exact hw.listed_events _ hl t (List.mem_cons_of_mem _ ht)
    · exact hw
  | publish n =>
    rcases step_publish master propagates σ n with ⟨h, -, hs⟩ | ⟨-, hs | hs⟩
    · rw [hs]
      exact hw.published hv h
    · rw [hs]
      exact hw
    · rw [hs]
      exact hw.published hv σ.handler
  | commit =>
    exact ⟨hw.current_uuid, hw.current_uuid, hw.current_events, hw.current_events,
      hw.listed_events⟩

theorem Covered.list (hc : σ.Covered) {rows : List Subscription} (hv : σ.Valid (.list rows)) :
    (σ.step master propagates (.list rows)).Covered where
  consistent := hc.consistent
  registered := hc.registered
  live := hc.live
  waiting := by
    intro s hs hr
    have hwait := hc.waiting s hs hr
    rw [Waiting, hv.1] at hwait
    obtain ⟨t, ht, htu⟩ := hwait
    exact ⟨t, hv.2.mem_iff.mpr ht, htu⟩

theorem Covered.commit (hc : σ.Covered) : (σ.step master propagates .commit).Covered where
  consistent := hc.consistent
  registered := hc.registered
  live := hc.live
  waiting := by
    intro s hs hr
    have hwait := hc.waiting s hs hr
    unfold Waiting at hwait ⊢
    cases hl : σ.listed with
    | none =>
      simp only [Startup.step, hl]
      exact ⟨s, hs, rfl⟩
    | some rows =>
      rw [hl] at hwait
      simp only [Startup.step, hl]
      exact hwait

theorem Covered.created (hc : σ.Covered) {s : Subscription} (hv : σ.Valid (.publish (.created s))) :
    (σ.step master propagates (.publish (.created s))).Covered := by
  obtain ⟨hp, hn, hdb, -, hnone⟩ := hv
  have hcb := register_subscriptionCallbacks master σ.handler s
  have hcur : (σ.step master propagates (.publish (.created s))).current = σ.current ++ [s] := by
    rw [current_of_none hp]
    rfl
  rw [← current_of_none hp] at hdb
  constructor
  · exact hc.consistent.register master (hc.consistent.entries_none hnone) hn
  · intro t ht row hrow
    rw [hcur] at ht
    have hrow' := (hcb t.uuid).symm.trans hrow
    rcases List.mem_append.mp ht with hold | hnew
    · rw [if_neg (hdb t hold)] at hrow'
      exact hc.registered t hold row hrow'
    · obtain rfl := List.mem_singleton.mp hnew
      rw [if_pos rfl] at hrow'
      cases hrow'
      exact ⟨rfl, rfl⟩
  · intro t ht hr
    rw [hcur] at ht
    have hr' := (hcb t.uuid).symm.trans hr
    rcases List.mem_append.mp ht with hold | hnew
    · rw [if_neg (hdb t hold)] at hr'
      exact hc.waiting t hold hr'
    · rw [if_pos (congrArg _ (List.mem_singleton.mp hnew))] at hr'
      cases hr'
  · intro uuid row hrow
    rw [hcur]
    have hrow' := (hcb uuid).symm.trans hrow
    split_ifs at hrow' with hu
    · exact ⟨s, List.mem_append_right _ List.mem_cons_self, hu.symm⟩
    · obtain ⟨t, ht, htu⟩ := hc.live uuid row hrow'
      exact ⟨t, List.mem_append_left _ ht, htu⟩

theorem Covered.deleted (hc : σ.Covered) {s : Subscription} (hv : σ.Valid (.publish (.deleted s))) :
    (σ.step master propagates (.publish (.deleted s))).Covered := by
  have hcb := unregister_subscriptionCallbacks σ.handler s
  have hcur : ∀ t, t ∈ (σ.step master propagates (.publish (.deleted s))).current ↔
      t ∈ σ.current ∧ t.uuid ≠ s.uuid := by
    intro t
    rw [current_of_none hv.1]
    exact mem_liveAfter_deleted
  constructor
  · exact hc.consistent.unregister
  · intro t ht row hrow
    obtain ⟨hold, hne⟩ := (hcur t).mp ht
    have hrow' := (hcb t.uuid).symm.trans hrow
    rw [if_neg hne] at hrow'
    exact hc.registered t hold row hrow'
  · intro t ht hr
    obtain ⟨hold, hne⟩ := (hcur t).mp ht
    have hr' := (hcb t.uuid).symm.trans hr
    rw [if_neg hne] at hr'
    exact hc.waiting t hold hr'
  · intro uuid row hrow
    have hrow' := (hcb uuid).symm.trans hrow
    split_ifs at hrow' with hu
    obtain ⟨t, ht, htu⟩ := hc.live uuid row hrow'
    exact ⟨t, (hcur t).mpr ⟨ht, htu ▸ hu⟩, htu⟩

/-- An update that finds no row, in a pubsub that goes on: the new version waits like the
old one did. -/
theorem Covered.updated_of_none (hc : σ.Covered) {s : Subscription} {order : List String}
    (hp : σ.published = none) (hr : σ.handler.subscriptionCallbacks s.uuid = none) :
    Covered { σ with published := some (.updated s order) } := by
  constructor
  · exact hc.consistent
  · intro t ht row hrow
    rcases (mem_liveAfter_updated order).mp ht with ⟨rfl, -⟩ | ⟨hold, -⟩
    · rw [hr] at hrow
      cases hrow
    · exact hc.registered t (current_of_none hp ▸ hold) row hrow
  · intro t ht hrow
    rcases (mem_liveAfter_updated order).mp ht with ⟨rfl, u, hu, hus⟩ | ⟨hold, -⟩
    · rw [← hus] at hr ⊢
      exact hc.waiting u (current_of_none hp ▸ hu) hr
    · exact hc.waiting t (current_of_none hp ▸ hold) hrow
  · intro uuid row hrow
    obtain ⟨u, hu, rfl⟩ := hc.live uuid row hrow
    exact exists_mem_liveAfter_updated (current_of_none hp ▸ hu) s order

theorem Covered.updated (hc : σ.Covered) {s : Subscription} {order : List String}
    (hv : σ.Valid (.publish (.updated s order))) :
    (σ.step master propagates (.publish (.updated s order))).Covered := by
  obtain ⟨hp, hn, ⟨t, ht, htu⟩, ho⟩ := hv
  rcases step_publish master propagates σ (.updated s order) with
    ⟨h, hok, hs⟩ | ⟨⟨s', order', he, hr⟩, hs | hs⟩
  · rw [hs]
    cases hr : σ.handler.subscriptionCallbacks s.uuid with
    | none =>
      rw [handle, update_of_none hr] at hok
      cases hok
    | some prev =>
      obtain ⟨h', headers, hok', -, -, hcb, -, -⟩ :=
        hc.consistent.update_spec master hr (ho prev hr)
      obtain rfl : h' = h := by
        rw [handle, hok'] at hok
        cases hok
        rfl
      have hcur : ∀ u ∈ liveAfter σ.database (.updated s order),
          u = s ∨ u ∈ σ.current ∧ u.uuid ≠ s.uuid := by
        intro u hu
        rw [current_of_none hp]
        exact ((mem_liveAfter_updated order).mp hu).imp_left And.left
      constructor
      · exact hc.consistent.update master hr (ho prev hr) hn hok'
      · intro u hu row hrow
        dsimp only at hrow
        rw [hcb, Function.update_apply] at hrow
        rcases hcur u hu with rfl | ⟨hold, hne⟩
        · rw [if_pos rfl] at hrow
          cases hrow
          exact ⟨rfl, rfl⟩
        · rw [if_neg hne] at hrow
          exact hc.registered u hold row hrow
      · intro u hu hrow
        dsimp only at hrow
        rw [hcb, Function.update_apply] at hrow
        rcases hcur u hu with rfl | ⟨hold, hne⟩
        · rw [if_pos rfl] at hrow
          cases hrow
        · rw [if_neg hne] at hrow
          exact hc.waiting u hold hrow
      · intro uuid row hrow
        dsimp only at hrow
        rw [hcb, Function.update_apply] at hrow
        have hex : ∃ u ∈ σ.database, u.uuid = uuid := by
          split_ifs at hrow with hu
          · exact ⟨t, ht, htu.trans hu.symm⟩
          · rw [← current_of_none hp]
            exact hc.live uuid row hrow
        obtain ⟨u, hu, rfl⟩ := hex
        exact exists_mem_liveAfter_updated hu s order
  · rw [hs]
    exact hc
  · cases he
    rw [hs]
    exact hc.updated_of_none hp hr

theorem step_register {s : Subscription} {rest : List Subscription}
    (hl : σ.listed = some (s :: rest)) : σ.step master propagates .register =
      { σ with handler := σ.handler.register master s, listed := some rest } := by
  rw [Startup.step, hl]

theorem step_register_none (hl : ∀ s rest, σ.listed ≠ some (s :: rest)) :
    σ.step master propagates .register = σ := by
  rw [Startup.step]
  split
  · next s rest h => exact absurd h (hl s rest)
  · rfl

/-- What is registered and is in place afterwards was current, and unregistered. -/
theorem Covered.current_of_register (hc : σ.Covered) (hw : σ.WellFormed) {s : Subscription}
    {rest : List Subscription} (hl : σ.listed = some (s :: rest))
    (hc' : (σ.step master propagates .register).Covered) :
    ∃ t ∈ σ.current, dump t = dump s ∧
      (σ.handler.subscriptionCallbacks s.uuid = none ∨ s.events = []) := by
  rw [step_register master propagates hl] at hc'
  have hn := hw.listed_events _ hl s List.mem_cons_self
  have hnew := (register_subscriptionCallbacks master σ.handler s s.uuid).trans (if_pos rfl)
  obtain ⟨t, ht, htu⟩ := hc'.live s.uuid _ hnew
  have ht' : t ∈ σ.current := ht
  have hd : dump t = dump s := (hc'.registered t ht _ (htu ▸ hnew)).1.symm
  refine ⟨t, ht', hd, ?_⟩
  cases hr : σ.handler.subscriptionCallbacks s.uuid with
  | none => exact Or.inl rfl
  | some row =>
    right
    by_contra hne
    obtain ⟨e, he⟩ := List.exists_mem_of_ne_nil _ hne
    have hte : t.events = s.events := congrArg SubscriptionDict.events hd
    have hrow : e ∈ row.events := by
      rw [(hc.registered t ht' row (htu ▸ hr)).2, hte]
      exact he
    exact hc.consistent.not_register_again master hr hn he hrow hc'.consistent

/-- A current and unregistered subscription is registered with all in place. -/
theorem Covered.register_of_current (hc : σ.Covered) (hw : σ.WellFormed) {s t : Subscription}
    {rest : List Subscription} (hl : σ.listed = some (s :: rest)) (ht : t ∈ σ.current)
    (hd : dump t = dump s)
    (hreg : σ.handler.subscriptionCallbacks s.uuid = none ∨ s.events = []) :
    (σ.step master propagates .register).Covered := by
  have htu : t.uuid = s.uuid := congrArg SubscriptionDict.uuid hd
  have hte : t.events = s.events := congrArg SubscriptionDict.events hd
  have hn := hw.listed_events _ hl s List.mem_cons_self
  have hcb := register_subscriptionCallbacks master σ.handler s
  rw [step_register master propagates hl]
  have hempty : ∀ e, σ.handler.entries s.uuid e = [] := by
    intro e
    cases hr : σ.handler.subscriptionCallbacks s.uuid with
    | none => exact hc.consistent.entries_none hr e
    | some row =>
      obtain ⟨b, hb⟩ := hc.consistent.entries_some hr e
      have hnone : s.events = [] := hreg.resolve_left (by rw [hr]; simp)
      rw [hb, rowEntries, (hc.registered t ht row (htu ▸ hr)).2, hte, hnone]
      rfl
  constructor
  · exact hc.consistent.register master hempty hn
  · intro u hu row hrow
    have hrow' := (hcb u.uuid).symm.trans hrow
    split_ifs at hrow' with hus
    · -- No other row has the same key.
      have hut : u = t := List.inj_on_of_nodup_map hw.current_uuid hu ht (hus.trans htu.symm)
      cases hrow'
      exact ⟨hut ▸ hd.symm, hut ▸ hte.symm⟩
    · exact hc.registered u hu row hrow'
  · intro u hu hr
    have hr' := (hcb u.uuid).symm.trans hr
    split_ifs at hr' with hus
    have hwait := hc.waiting u hu hr'
    rw [Waiting, hl] at hwait
    obtain ⟨v, hv, hvu⟩ := hwait
    rcases List.mem_cons.mp hv with rfl | hrest
    · exact absurd hvu.symm hus
    · exact ⟨v, hrest, hvu⟩
  · intro uuid row hrow
    have hrow' := (hcb uuid).symm.trans hrow
    split_ifs at hrow' with hu
    · exact ⟨t, ht, htu.trans hu.symm⟩
    · exact hc.live uuid row hrow'

/-- A registration by the startup leaves all in place exactly when it is of a current and
unregistered subscription. -/
theorem Covered.register_iff (hc : σ.Covered) (hw : σ.WellFormed) :
    (σ.step master propagates .register).Covered ↔ σ.RegistersCurrent .register := by
  constructor
  · exact fun hc' s rest hl => hc.current_of_register master propagates hw hl hc'
  · intro hg
    by_cases hl : ∃ s rest, σ.listed = some (s :: rest)
    · obtain ⟨s, rest, hl⟩ := hl
      obtain ⟨t, ht, hd, hreg⟩ := hg s rest hl
      exact hc.register_of_current master propagates hw hl ht hd hreg
    · rw [step_register_none master propagates fun s rest h => hl ⟨s, rest, h⟩]
      exact hc

theorem Covered.step_iff (hc : σ.Covered) (hw : σ.WellFormed) {l : StartupStep}
    (hv : σ.Valid l) :
    (σ.step master propagates l).Covered ↔ σ.RegistersCurrent l := by
  cases l with
  | list rows => exact iff_of_true (hc.list master propagates hv) trivial
  | register => exact hc.register_iff master propagates hw
  | commit => exact iff_of_true (hc.commit master propagates) trivial
  | publish n =>
    refine iff_of_true ?_ trivial
    cases n with
    | created s => exact hc.created master propagates hv
    | updated s order => exact hc.updated master propagates hv
    | deleted s => exact hc.deleted master propagates hv

end Step

theorem wellFormed_init {exchangeType : String} {database : List Subscription}
    (hu : (database.map (·.uuid)).Nodup) (hn : ∀ s ∈ database, s.events.Nodup) :
    (init exchangeType database).WellFormed :=
  ⟨hu, hu, hn, hn, fun _ h => by cases h⟩

theorem covered_init (exchangeType : String) (database : List Subscription) :
    (init exchangeType database).Covered where
  consistent := consistent_init exchangeType
  registered _ _ _ h := by cases h
  waiting s hs _ := ⟨s, hs, rfl⟩
  live _ _ h := by cases h

end Startup

open Startup

/-- A run in which the startup only registers current and unregistered subscriptions ends
with the registry and the table of the database. These are also the runs in which every
state on the way has each subscription either registered or waiting. -/
theorem startup_synced (master exchangeType : String) (propagates : Bool)
    {database : List Subscription} (hu : (database.map (·.uuid)).Nodup)
    (hn : ∀ s ∈ database, s.events.Nodup) (steps : List StartupStep)
    (hv : Run.Along (step master propagates) Valid (init exchangeType database) steps) :
    let final := steps.foldl (step master propagates) (init exchangeType database)
    (Run.Along (step master propagates) RegistersCurrent (init exchangeType database) steps →
      final.Finished → final.Synced) ∧
    (Run.Always (step master propagates) Covered (init exchangeType database) steps ↔
      Run.Along (step master propagates) RegistersCurrent (init exchangeType database) steps) := by
  intro final
  have hiff : Run.Always (step master propagates) Covered (init exchangeType database) steps ↔
      Run.Along (step master propagates) RegistersCurrent (init exchangeType database) steps := by
    refine Run.always_iff_along (J := WellFormed) ?_ ?_ (wellFormed_init hu hn)
      (covered_init exchangeType database) hv
    · intro σ l hw hl
      exact hw.step master propagates hl
    · intro σ l hw hc hl
      exact hc.step_iff master propagates hw hl
  refine ⟨?_, hiff⟩
  intro hg hf
  exact (hiff.mpr hg steps List.prefix_rfl).synced hf

def updatedAfterStartup : List StartupStep :=
  [.list [voicemailSubscription], .register,
    .publish (.updated { voicemailSubscription with name := "renamed" }
      ["user_missed_call", globalVoicemailMessageCreated]), .commit]

theorem startup_synced_update :
    (updatedAfterStartup.foldl (step "master" false)
      (init "headers" [voicemailSubscription])).Synced := by
  have hv : Run.Along (step "master" false) Valid (init "headers" [voicemailSubscription])
      updatedAfterStartup := by
    refine ⟨⟨rfl, List.Perm.refl _⟩, trivial, ⟨rfl, by decide, ?_, ?_⟩, trivial, trivial⟩
    · exact ⟨voicemailSubscription, List.mem_cons_self, rfl⟩
    · rintro prev ⟨⟩
      decide
  have hg : Run.Along (step "master" false) RegistersCurrent
      (init "headers" [voicemailSubscription]) updatedAfterStartup := by
    refine ⟨trivial, ?_, trivial, trivial, trivial⟩
    rintro s rest ⟨⟩
    exact ⟨voicemailSubscription, List.mem_cons_self, rfl, Or.inl rfl⟩
  exact (startup_synced "master" "headers" false (by decide) (by decide) updatedAfterStartup hv).1
    hg ⟨rfl, rfl⟩

def createdBeforeListing : List StartupStep :=
  [.publish (.created voicemailSubscription), .commit, .list [voicemailSubscription], .register]

/-- The startup registers it again: two entries, of which the registry knows one. -/
theorem createdBeforeListing_not_synced :
    let final := createdBeforeListing.foldl (step "master" true) (init "headers" [])
    Run.Along (step "master" true) Valid (init "headers" []) createdBeforeListing ∧
      final.Finished ∧ ¬ final.Synced := by
  refine ⟨⟨⟨rfl, by decide, by decide, by decide, rfl⟩, trivial, ⟨rfl, List.Perm.refl _⟩, trivial,
    trivial⟩, ⟨rfl, rfl⟩, ?_⟩
  intro h
  obtain ⟨row, -, -, hrow⟩ := h.live voicemailSubscription List.mem_cons_self
  have htwo : ((createdBeforeListing.foldl (step "master" true) (init "headers" [])).handler.entries
      voicemailSubscription.uuid "user_missed_call").length = 2 := by decide
  have hone := congrArg List.length (hrow "user_missed_call")
  rw [List.length_map, htwo, if_pos (by decide)] at hone
  cases hone

end WazoWebhookd

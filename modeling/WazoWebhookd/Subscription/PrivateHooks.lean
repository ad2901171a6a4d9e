import WazoWebhookd.Subscription.Requests

/-! Users who subscribe through the endpoints under `/users/me`: whatever fails, the hooks of
their subscriptions are only given messages that are addressed to them. -/
namespace WazoWebhookd
open Failing SubscriptionService SubscriptionBusEventHandler HeadersExchange

/-- A version in `P` stands behind every row and behind every entry of the table. -/
structure World.Holds (master : String) (P : Subscription → Prop) (w : World) : Prop where
  constraints : Constraints w.database
  stored : ∀ s ∈ w.database, P s
  attributed : w.handler.Attributed master P
  exchangeType : w.handler.busConsumer.exchangeType = "headers"

section Holds
variable {master : String} {P : Subscription → Prop} {w : World}

theorem stored_liveAfter {database : List Subscription} (h : ∀ s ∈ database, P s)
    {n : Notification} (hn : ∀ s, n.version = some s → P s) : ∀ s ∈ liveAfter database n, P s := by
  intro s hs
  cases n with
  | created t =>
    rcases List.mem_append.mp hs with hold | hnew
    · exact h s hold
    · rw [List.mem_singleton.mp hnew]
      exact hn t rfl
  | updated t order =>
    rcases (mem_liveAfter_updated order).mp hs with ⟨rfl, -⟩ | ⟨hold, -⟩
    · exact hn s rfl
    · exact h s hold
  | deleted t => exact h s (mem_liveAfter_deleted.mp hs).1

/-- A call whose steps may fail leaves behind no version but the one it announces. -/
theorem World.Holds.call (hw : w.Holds master P) (fault : Option Fault) {call : ServiceCall}
    (hnew : ∀ n, call.announced w.database = some n → ∀ s, n.version = some s → P s) :
    (w.step master (.call fault call)).Holds master P := by
  change (exec (call.run master fault) w).2.Holds master P
  by_cases hearly : call.announced w.database = none ∨ call.EarlyFault fault
  · obtain ⟨e, he⟩ := call.exec_run_early master hearly
    rw [he]
    exact hw
  · obtain ⟨hnone, hf⟩ := not_or.mp hearly
    obtain ⟨n, ha⟩ := Option.ne_none_iff_exists'.mp hnone
    have hversion := hnew n ha
    rw [ServiceCall.exec_run_announced hw.constraints ha hf, outcome]
    cases hh : w.handler.handle master n with
    | error e => exact ⟨hw.constraints, hw.stored, hw.attributed, hw.exchangeType⟩
    | ok h =>
      have hattributed := hw.attributed.handle hversion hh
      have hexchange := (handle_exchangeType master hh).trans hw.exchangeType
      dsimp only
      split_ifs
      · exact ⟨hw.constraints, hw.stored, hattributed, hexchange⟩
      · exact ⟨hw.constraints, hw.stored, hattributed, hexchange⟩
      · exact ⟨ServiceCall.constraints_announced hw.constraints ha,
          stored_liveAfter hw.stored hversion, hattributed, hexchange⟩

theorem World.Holds.sync (hw : w.Holds master P) (iteration : SetIteration)
    (authTenants authUsers : Finset String) :
    (w.step master (.sync iteration authTenants authUsers)).Holds master P := by
  refine ⟨World.constraints_step hw.constraints (.sync iteration authTenants authUsers), ?_,
    hw.attributed, hw.exchangeType⟩
  intro s hs
  change s ∈ SyncDb.sync iteration authTenants authUsers w.database at hs
  unfold SyncDb.sync SyncDb.removeUsers SyncDb.removeTenants at hs
  simp only [SyncDb.removeUser, SyncDb.removeTenant, KeyedList.foldl_filter] at hs
  exact hw.stored s (List.mem_of_mem_filter (List.mem_of_mem_filter hs))

theorem attributed_scratch (master exchangeType : String) {rows : List Subscription}
    (h : ∀ s ∈ rows, P s) : (scratch master exchangeType rows).Attributed master P := by
  induction rows using List.reverseRecOn with
  | nil => exact attributed_init exchangeType
  | append_singleton rows s ih =>
    have hrows := ih fun t ht => h t (List.mem_append_left _ ht)
    have hs : P s := h s (List.mem_append_right _ List.mem_cons_self)
    rw [scratch, List.foldl_append]
    refine hrows.handle (n := .created s) ?_ rfl
    intro t ht
    cases ht
    exact hs

/-- Where the daemon serves its database, the rows stand behind the entries. -/
theorem World.Serving.holds (hw : w.Serving master) (h : ∀ s ∈ w.database, P s) :
    w.Holds master P where
  constraints := hw.agreeing.constraints
  stored := h
  exchangeType := hw.exchangeType
  attributed := by
    intro e entry hentry
    obtain ⟨fresh, hfresh, hcontent⟩ := List.mem_map.mp
      ((hw.agreeing.exact e).mem_iff.mp (List.mem_map_of_mem hentry))
    obtain ⟨s, hs, hmade⟩ := attributed_scratch master "headers" h e fresh hfresh
    obtain ⟨hsubscription, hbinding⟩ := Prod.mk.inj hcontent
    refine ⟨s, hs, hsubscription.symm.trans hmade.handler, ?_⟩
    rw [← hbinding]
    exact hmade.binding

theorem World.Holds.restart (hw : w.Holds master P) {rows : List Subscription}
    (hp : rows.Perm w.database) : (w.step master (.restart rows)).Holds master P :=
  ⟨hw.constraints, hw.stored,
    attributed_scratch master "headers" fun s hs => hw.stored s (hp.mem_iff.mp hs),
    scratch_exchangeType master "headers" rows⟩

end Holds

/-- What happens to a daemon whose subscriptions are those of users. -/
inductive UserStep
  | request (token : Token) (fault : Option Fault) (request : UserRequest)
  | deletion (fault : Option Fault) (uuid : String) (ownerTenantUuids : List String)
      (ownerUserUuid : Option String)
  | sync (iteration : SetIteration) (authTenants authUsers : Finset String)
  | restart (rows : List Subscription)

section Users
variable (mallow : AdminMallow) (text : Json → Option String) (master : String)

def World.userStep (w : World) : UserStep → World
  | .request token fault request =>
    (exec (request.serve mallow.toMallow text master fault token) w).2
  | .deletion fault uuid tenants user => w.step master (.call fault (.delete uuid tenants user))
  | .sync iteration authTenants authUsers => w.step master (.sync iteration authTenants authUsers)
  | .restart rows => w.step master (.restart rows)

/-- A restarted daemon lists the rows of its database. -/
def World.Lists (w : World) : UserStep → Prop
  | .restart rows => rows.Perm w.database
  | _ => True

/-- The subscription goes back to a `post` of the history, and is for the user of its token. -/
def PostedIn (history : List UserStep) (s : Subscription) : Prop :=
  ∃ token fault json, .request token fault (.post s.uuid json) ∈ history ∧ token.Origin s

variable {mallow text master} {w : World} {history : List UserStep}

theorem announced_userRequest (hm : mallow.toMallow.Documented) {P : Subscription → Prop}
    (hcongr : ∀ s s', SameOwnership s s' → P s → P s') {token : Token} {request : UserRequest}
    (hpost : ∀ json s, request = .post s.uuid json → token.Origin s → P s)
    (hstored : ∀ s ∈ w.database, P s) {call : ServiceCall}
    (hcall : request.meCall text mallow.toMallow token.any = some call) {n : Notification}
    (hn : call.announced w.database = some n) {s : Subscription} (hs : n.version = some s) :
    P s := by
  cases request with
  | list args => cases hcall
  | get uuid => cases hcall
  | delete uuid =>
    cases hcall
    obtain ⟨t, -, rfl⟩ := ServiceCall.announced_delete hn
    cases hs
  | post uuid json =>
    obtain ⟨d, k, hload, hk, rfl⟩ := UserRequest.meCall_post hcall
    obtain ⟨tenantUuid, -, rfl, -⟩ := ServiceCall.announced_create hn
    obtain ⟨k', hk', hwazo, hevents, howner, htenant⟩ := ofDict_owned hm hload text token
    obtain rfl : k = k' := Option.some.inj (hk.symm.trans hk')
    cases hs
    refine hpost json _ rfl ?_
    constructor
    · simp [Subscription.fromSchema, htenant]
    · simp [Subscription.fromSchema, howner]
    · simp [Subscription.fromSchema, hevents]
    · simp [Subscription.fromSchema, hwazo]
  | put uuid json order =>
    obtain ⟨d, k, hload, hk, rfl⟩ := UserRequest.meCall_put hcall
    obtain ⟨t, ht, rfl, -⟩ := ServiceCall.announced_update hn
    obtain ⟨k', hk', hwazo, hevents, howner, htenant⟩ := ofDict_load hm hload text
    obtain rfl : k = k' := Option.some.inj (hk.symm.trans hk')
    have hsame : SameOwnership t (t.clearRelations.fromSchema k) := by
      constructor <;> simp [Subscription.fromSchema, Subscription.clearRelations, *]
    cases hs
    exact hcongr t _ hsame (hstored t (mem_of_find ht).1)

theorem World.Holds.userStep (hm : mallow.toMallow.Documented) {P : Subscription → Prop}
    (hcongr : ∀ s s', SameOwnership s s' → P s → P s') (hw : w.Holds master P) {l : UserStep}
    (hpost : ∀ token fault json s, l = .request token fault (.post s.uuid json) →
      token.Origin s → P s)
    (hlists : w.Lists l) : (w.userStep mallow text master l).Holds master P := by
  cases l with
  | deletion fault uuid tenants user =>
    refine hw.call fault ?_
    intro n hn s hs
    obtain ⟨t, -, rfl⟩ := ServiceCall.announced_delete hn
    cases hs
  | sync iteration authTenants authUsers => exact hw.sync iteration authTenants authUsers
  | restart rows => exact hw.restart hlists
  | request token fault request =>
    change (exec (request.serve mallow.toMallow text master fault token) w).2.Holds master _
    rw [← serveMe_any, serveMe_world]
    cases hcall : request.meCall text mallow.toMallow token.any with
    | none => exact hw
    | some call =>
      refine hw.call fault ?_
      intro n hn s hs
      refine announced_userRequest hm hcongr ?_ hw.stored hcall hn hs
      rintro json t rfl horigin
      exact hpost token fault json t rfl horigin

theorem PostedIn.congr {s s' : Subscription} (hsame : SameOwnership s s')
    (h : PostedIn history s) : PostedIn history s' := by
  obtain ⟨token, fault, json, hpost, horigin⟩ := h
  exact ⟨token, fault, json, hsame.uuid ▸ hpost, horigin.congr hsame⟩

theorem World.holds_emptyWorld (master : String) (P : Subscription → Prop) :
    emptyWorld.Holds master P where
  constraints := agreeing_emptyWorld.constraints
  stored s hs := by cases hs
  attributed := attributed_init "headers"
  exchangeType := rfl

variable (serviceManager : String → Option EntryPoint) (config : HookConfig)

theorem mem_submitted {d : BusDelivery} {invoked : List (Entry Callback × HandlerArgs Json)}
    {args : HookRunnerArgs} (h : args ∈ d.submitted serviceManager config invoked) :
    ∃ called ∈ invoked, args.subscription = called.1.handler.subscription := by
  obtain ⟨call, hcall, hargs⟩ := List.mem_filterMap.mp h
  obtain ⟨-, hhook⟩ := hookRunnerArgs_eq_some hargs
  obtain ⟨entryPoint, -, heq⟩ := Option.map_eq_some_iff.mp hhook
  exact ⟨call.1, List.fst_mem_of_mem_zipIdx hcall, (congrArg Hook.subscription heq).symm⟩

/-- The hooks of a message are those of versions in `P` that it is addressed to. -/
theorem World.Holds.submitted {P : Subscription → Prop} (hw : w.Holds master P) (m : Message)
    (d : BusDelivery) :
    ∃ done, d.dispatch serviceManager config w.handler.busConsumer m = .ok done ∧
      ∀ args ∈ d.submitted serviceManager config done.invoked,
        ∃ s, P s ∧ args.subscription = dump s ∧ Addressed master m.headers (dump s) := by
  obtain ⟨done, hdone, hcalled⟩ := hw.attributed.dispatch (fun _ => false)
    (d.call serviceManager config) hw.exchangeType m.name m.payload m.headers
  refine ⟨done, hdone, ?_⟩
  intro args hargs
  obtain ⟨called, hin, hsubscription⟩ := mem_submitted serviceManager config hargs
  obtain ⟨haddressed, s, hs, hdump⟩ := hcalled called hin
  rw [hdump] at haddressed
  exact ⟨s, hs, hsubscription.trans hdump, haddressed⟩

variable (mallow text master)

/-- Whatever users request, whichever steps of their requests fail, and whatever is deleted or
restarted in between: a hook is for a user who has posted its subscription, and its message is
one of the tenant and of the origin of this user, about the user or about all of them. -/
theorem user_hooks_are_private (hm : mallow.toMallow.Documented) (history : List UserStep)
    (hlists : Run.Along (World.userStep mallow text master) World.Lists emptyWorld history)
    (m : Message) (d : BusDelivery) :
    let now := history.foldl (World.userStep mallow text master) emptyWorld
    ∃ done, d.dispatch serviceManager config now.handler.busConsumer m = .ok done ∧
      ∀ args ∈ d.submitted serviceManager config done.invoked, ∃ token fault json,
        .request token fault (.post args.subscription.uuid json) ∈ history ∧
        args.subscription.ownerUserUuid = some token.userUuid ∧
        (token.tenantUuid = master ∨
          m.headers.lookup "tenant_uuid" = some (.str token.tenantUuid)) ∧
        (token.xivoUuid ≠ "" → m.headers.lookup "origin_uuid" = some (.str token.xivoUuid)) ∧
        (Meets m.headers ("user_uuid:" ++ token.userUuid) (.bool true) ∨
          Meets m.headers "user_uuid:*" (.bool true)) := by
  intro now
  have hmem : Run.Along (World.userStep mallow text master) (fun _ l => l ∈ history) emptyWorld
      history := Run.along_label.mpr fun _ h => h
  have hrun : Run.Always (World.userStep mallow text master)
      (World.Holds master (PostedIn history)) emptyWorld history := by
    refine Run.always_of_along (J := World.Holds master (PostedIn history)) ?_ (fun _ hσ => hσ)
      (World.holds_emptyWorld master _) (Run.along_and hmem hlists)
    rintro w l hw ⟨hl, hlist⟩
    refine World.Holds.userStep hm (fun _ _ hsame hs => hs.congr hsame) hw ?_ hlist
    rintro token fault json s rfl horigin
    exact ⟨token, fault, json, hl, horigin⟩
  have hnow : now.Holds master (PostedIn history) := hrun history List.prefix_rfl
  obtain ⟨done, hdone, hsubmitted⟩ := hnow.submitted serviceManager config m d
  refine ⟨done, hdone, ?_⟩
  intro args hargs
  obtain ⟨s, ⟨token, fault, json, hpost, horigin⟩, hdump, haddressed⟩ := hsubmitted args hargs
  rw [hdump]
  refine ⟨token, fault, json, hpost, horigin.ownerUser, ?_, ?_, ?_⟩
  · rw [← horigin.ownerTenant]
    exact haddressed.tenant
  · intro hxivo
    apply haddressed.origin
    change truthy s.eventsWazoUuid = _
    rw [horigin.eventsWazo]
    exact truthy_of_ne fun h => hxivo (Option.some.inj h)
  · apply haddressed.user
    change truthy s.eventsUserUuid = _
    rw [horigin.eventsUser]
    exact truthy_userUuid token

end Users

/-- The notifier fails for the user who posts, and the callback stays: the message is for her all
the same. -/
theorem user_hooks_are_private_post :
    let history : List UserStep :=
      [.request alice (some .notifier) (.post "8b6d3f5e-0d3f-4f0e-9a53-3b8b1d3f5e01" forgedBody)]
    let serviceManager : String → Option EntryPoint := fun _ => some ⟨"mobile.plugin", "Service"⟩
    let d : BusDelivery := ⟨fun _ => "0b9d2d5e-4a62-4bd0-8b2b-7f3f6a2f8c05", fun _ _ => .ok ()⟩
    let now := history.foldl (World.userStep AdminMallow.plain Json.asString "master") emptyWorld
    now.database = [] ∧
      ∃ done, d.dispatch serviceManager ⟨10, 2⟩ now.handler.busConsumer aliceCall = .ok done ∧
        ∀ args ∈ d.submitted serviceManager ⟨10, 2⟩ done.invoked, ∃ token fault json,
          .request token fault (.post args.subscription.uuid json) ∈ history ∧
          args.subscription.ownerUserUuid = some token.userUuid ∧
          (token.tenantUuid = "master" ∨
            aliceCall.headers.lookup "tenant_uuid" = some (.str token.tenantUuid)) ∧
          (token.xivoUuid ≠ "" →
            aliceCall.headers.lookup "origin_uuid" = some (.str token.xivoUuid)) ∧
          (Meets aliceCall.headers ("user_uuid:" ++ token.userUuid) (.bool true) ∨
            Meets aliceCall.headers "user_uuid:*" (.bool true)) := by
  intro history serviceManager d now
  refine ⟨by decide, ?_⟩
  exact user_hooks_are_private AdminMallow.plain Json.asString "master" serviceManager ⟨10, 2⟩
    Mallow.documented_plain history ⟨trivial, trivial⟩ aliceCall d

end WazoWebhookd

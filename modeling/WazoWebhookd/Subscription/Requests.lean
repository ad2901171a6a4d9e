import WazoWebhookd.Subscription.Attribution
import WazoWebhookd.Subscription.Daemon
import WazoWebhookd.Subscription.RestStore
import WazoWebhookd.Subscription.UserConfinement

/-! The requests as calls of the service: what the daemon makes of runs of requests, and whose
messages the hooks of users are given. -/
namespace WazoWebhookd
open Failing SubscriptionService

section Calls
variable (text : Json → Option String)

/-- What a request under `/users/me` has the service do, when its body gets through. -/
def UserRequest.meCall (mallow : Mallow) (token : AnyToken) : UserRequest → Option ServiceCall
  | .list _ => none
  | .post uuid json => do
    let subscription ← (mallow.load (userSubscriptionSchema mallow) json).toOption
    (SchemaKwargs.ofDict text (token.owned subscription)).map (.create uuid)
  | .get _ => none
  | .put uuid json order => do
    let subscription ← (mallow.load (userSubscriptionSchema mallow) json).toOption
    (SchemaKwargs.ofDict text subscription).map fun kwargs =>
      .update uuid kwargs order [token.tenantUuid] token.userUuid
  | .delete uuid => some (.delete uuid [token.tenantUuid] token.userUuid)

/-- The same under `/subscriptions`, where the token also has to be one of a tenant. -/
def UserRequest.adminCall (mallow : AdminMallow) (access : Access) :
    UserRequest → Option ServiceCall
  | .list _ => none
  | .post uuid json => do
    let subscription ← (loadSubscription mallow json).toOption
    let tenantUuid ← access.autodetect.toOption
    (SchemaKwargs.ofDict text (subscription.insert "owner_tenant_uuid" (.str tenantUuid))).map
      (.create uuid)
  | .get _ => none
  | .put uuid json order =>
    (adminUpdate mallow text access json).map fun p => .update uuid p.1 order p.2 none
  | .delete uuid =>
    (access.visibleTenants true).toOption.map fun tenantUuids => .delete uuid tenantUuids none

variable {text} in
theorem UserRequest.meCall_post {mallow : Mallow} {token : AnyToken} {uuid : String} {json : Json}
    {call : ServiceCall} (h : (UserRequest.post uuid json).meCall text mallow token = some call) :
    ∃ d kwargs, mallow.load (userSubscriptionSchema mallow) json = .ok d ∧
      SchemaKwargs.ofDict text (token.owned d) = some kwargs ∧ call = .create uuid kwargs := by
  rw [UserRequest.meCall] at h
  obtain ⟨d, hd, h⟩ := Option.bind_eq_some_iff.mp h
  obtain ⟨kwargs, hkwargs, hcall⟩ := Option.map_eq_some_iff.mp h
  exact ⟨d, kwargs, eq_ok_of_toOption hd, hkwargs, hcall.symm⟩

variable {text} in
theorem UserRequest.meCall_put {mallow : Mallow} {token : AnyToken} {uuid : String} {json : Json}
    {order : List String} {call : ServiceCall}
    (h : (UserRequest.put uuid json order).meCall text mallow token = some call) :
    ∃ d kwargs, mallow.load (userSubscriptionSchema mallow) json = .ok d ∧
      SchemaKwargs.ofDict text d = some kwargs ∧
      call = .update uuid kwargs order [token.tenantUuid] token.userUuid := by
  rw [UserRequest.meCall] at h
  obtain ⟨d, hd, h⟩ := Option.bind_eq_some_iff.mp h
  obtain ⟨kwargs, hkwargs, hcall⟩ := Option.map_eq_some_iff.mp h
  exact ⟨d, kwargs, eq_ok_of_toOption hd, hkwargs, hcall.symm⟩

def RestAction.call? (mallow : AdminMallow) : RestAction → Option ServiceCall
  | .me token _ request => request.meCall text mallow.toMallow token
  | .admin access _ request => request.adminCall text mallow access

/-- The step of the daemon that a request is, if it is one. -/
def RestAction.daemonSteps (mallow : AdminMallow) (action : RestAction) : List DaemonStep :=
  ((action.call? text mallow).map (.call action.fault)).toList

end Calls

section World
variable {mallow : AdminMallow} {text : Json → Option String} {master : String}
  {fault : Option Fault} {w : World}

theorem exec_discard_world {α : Type} (x : ServiceM α) (w : World) :
    (exec (do let _ ← x; pure () : ServiceM Unit) w).2 = (exec x w).2 := by
  rw [exec_bind]
  cases exec x w with
  | mk result w' => cases result <;> rfl

theorem ServiceCall.run_world (call : ServiceCall) : (exec (call.run master fault) w).2 =
    match call with
    | .create uuid new => (exec (SubscriptionService.create master fault uuid new) w).2
    | .update uuid new order tenants user =>
      (exec (SubscriptionService.update master fault uuid new order tenants user) w).2
    | .delete uuid tenants user =>
      (exec (SubscriptionService.delete master fault uuid tenants user) w).2 := by
  cases call with
  | create uuid new => exact exec_discard_world _ w
  | update uuid new order tenants user => exact exec_discard_world _ w
  | delete uuid tenants user => exact exec_discard_world _ w

theorem serveMe_world (token : AnyToken) (request : UserRequest) :
    (exec (request.serveMe mallow.toMallow text master fault token) w).2 =
      match request.meCall text mallow.toMallow token with
      | none => w
      | some call => (exec (call.run master fault) w).2 := by
  cases request with
  | list args =>
    exact ((reads_raising _ (reads_ofExcept _)).bind fun _ =>
      (reads_raising _ (reads_list _ _ _ _ _)).bind fun _ => reads_pure _) w
  | get uuid => exact ((reads_raising _ (reads_get _ _ _ _)).bind fun _ => reads_pure _) w
  | delete uuid =>
    rw [UserRequest.meCall]
    dsimp only
    rw [ServiceCall.run_world]
    exact exec_raising_bind_pure _ _ (fun _ => Response.noContent) w
  | post uuid json =>
    rw [UserRequest.serveMe, UserRequest.meCall]
    cases hl : mallow.load (userSubscriptionSchema mallow.toMallow) json with
    | error e =>
      rw [exec_bind_of_error (exec_raising_of_error _ (exec_ofExcept _ w))]
      rfl
    | ok d =>
      rw [exec_bind_of_ok (exec_raising_of_ok _ (exec_ofExcept _ w))]
      dsimp only [Except.toOption, Option.bind_eq_bind, Option.bind_some]
      cases hk : SchemaKwargs.ofDict text (token.owned d) with
      | none => rw [exec_bind_of_error (exec_keywords_none hk), Option.map_none]
      | some k =>
        rw [exec_bind_of_ok (exec_keywords hk), exec_raising_bind_pure, Option.map_some]
        dsimp only
        rw [ServiceCall.run_world]
  | put uuid json order =>
    rw [UserRequest.serveMe, UserRequest.meCall]
    cases hl : mallow.load (userSubscriptionSchema mallow.toMallow) json with
    | error e =>
      rw [exec_bind_of_error (exec_raising_of_error _ (exec_ofExcept _ w))]
      rfl
    | ok d =>
      rw [exec_bind_of_ok (exec_raising_of_ok _ (exec_ofExcept _ w))]
      dsimp only [Except.toOption, Option.bind_eq_bind, Option.bind_some]
      cases hk : SchemaKwargs.ofDict text d with
      | none => rw [exec_bind_of_error (exec_keywords_none hk), Option.map_none]
      | some k =>
        rw [exec_bind_of_ok (exec_keywords hk), exec_raising_bind_pure, Option.map_some]
        dsimp only
        rw [ServiceCall.run_world]

theorem serveAdmin_world (access : Access) (request : UserRequest) :
    (exec (request.serveAdmin mallow text master fault access) w).2 =
      match request.adminCall text mallow access with
      | none => w
      | some call => (exec (call.run master fault) w).2 := by
  cases request with
  | list args =>
    exact ((reads_raising _ (reads_ofExcept _)).bind fun _ =>
      (reads_raising _ (reads_ofExcept _)).bind fun _ =>
        (reads_raising _ (reads_list _ _ _ _ _)).bind fun _ => reads_pure _) w
  | get uuid =>
    exact ((reads_raising _ (reads_ofExcept _)).bind fun _ =>
      (reads_raising _ (reads_get _ _ _ _)).bind fun _ => reads_pure _) w
  | delete uuid =>
    change (exec (SubscriptionResource.delete master fault access uuid) w).2 = _
    unfold SubscriptionResource.delete
    cases hv : access.visibleTenants true with
    | error e =>
      rw [exec_bind_of_error (exec_raising_of_error _ (exec_ofExcept _ w)), UserRequest.adminCall,
        hv]
      rfl
    | ok tenantUuids =>
      rw [exec_bind_of_ok (exec_raising_of_ok _ (exec_ofExcept _ w)), UserRequest.adminCall, hv]
      dsimp only [Except.toOption, Option.map_some]
      rw [ServiceCall.run_world]
      exact exec_raising_bind_pure _ _ (fun _ => Response.noContent) w
  | post uuid json =>
    change (exec (SubscriptionsResource.post mallow text master fault access uuid json) w).2 = _
    unfold SubscriptionsResource.post
    rw [UserRequest.adminCall]
    cases hl : loadSubscription mallow json with
    | error e =>
      have hload : ∀ d tenantUuid, loadSubscription mallow json = .ok d →
          access.autodetect ≠ .ok tenantUuid := by
        intro d tenantUuid hd
        cases hl.symm.trans hd
      obtain ⟨e', he⟩ := exec_adminBody_error (w := w) hload
      rw [exec_bind_of_error he]
      rfl
    | ok d =>
      cases ha : access.autodetect with
      | error e =>
        have haccess : ∀ d tenantUuid, loadSubscription mallow json = .ok d →
            access.autodetect ≠ .ok tenantUuid := by
          intro d tenantUuid _ ht
          cases ha.symm.trans ht
        obtain ⟨e', he⟩ := exec_adminBody_error (w := w) haccess
        rw [exec_bind_of_error he]
        rfl
      | ok tenantUuid =>
        rw [exec_bind_of_ok (exec_adminBody_ok hl ha)]
        dsimp only [Except.toOption, Option.bind_eq_bind, Option.bind_some]
        cases hk : SchemaKwargs.ofDict text
            (d.insert "owner_tenant_uuid" (.str tenantUuid)) with
        | none =>
          rw [exec_bind_of_error (exec_raising_of_error _ (exec_keywords_none hk)),
            Option.map_none]
        | some k =>
          rw [exec_bind_of_ok (exec_raising_of_ok _ (exec_keywords hk)), exec_raising_bind_pure,
            Option.map_some]
          dsimp only
          rw [ServiceCall.run_world]
  | put uuid json order =>
    change (exec (SubscriptionResource.put mallow text master fault access uuid json order) w).2 = _
    rw [UserRequest.adminCall]
    cases hu : adminUpdate mallow text access json with
    | none =>
      obtain ⟨e, he⟩ := exec_adminPut_none text fault hu
      rw [he, Option.map_none]
    | some p =>
      obtain ⟨hput, -⟩ := exec_adminPut_some text fault hu
      rw [hput, exec_raising_bind_pure, Option.map_some]
      dsimp only
      rw [ServiceCall.run_world]

/-- A request is a step of the daemon, or none. -/
theorem RestApi.step_world (σ : RestApi) (action : RestAction) :
    (σ.step mallow text master action).world =
      (action.daemonSteps text mallow).foldl (World.step master) σ.world := by
  cases action with
  | me token fault request =>
    change (exec (request.serveMe mallow.toMallow text master fault token) σ.world).2 = _
    rw [serveMe_world, RestAction.daemonSteps, RestAction.call?]
    cases request.meCall text mallow.toMallow token <;> rfl
  | admin access fault request =>
    change (exec (request.serveAdmin mallow text master fault access) σ.world).2 = _
    rw [serveAdmin_world, RestAction.daemonSteps, RestAction.call?]
    cases request.adminCall text mallow access <;> rfl

end World

section Orderly
variable (mallow : AdminMallow) (text : Json → Option String) (master : String)

/-- A request none of whose steps fails once it has published, and whose update, if it is one,
goes without the global voicemail event. -/
def RestApi.Orderly (σ : RestApi) (action : RestAction) : Prop :=
  action.fault ≠ some .notifier ∧ action.fault ≠ some .commit ∧
    ∀ uuid new order tenants user,
      action.call? text mallow = some (.update uuid new order tenants user) →
      globalVoicemailMessageCreated ∉ order ∧
        ∀ s, find σ.world.database uuid tenants user = some s →
          IsIteration order new.events s.events

variable {mallow text master} {σ : RestApi} {action : RestAction}

theorem keepsHeaders_of_notMem {s : Subscription} {order : List String}
    (h : globalVoicemailMessageCreated ∉ order) : KeepsHeaders (.updated s order) := by
  right
  intro e _ hafter
  exact h ((List.takeWhile_sublist _).subset hafter)

theorem RestApi.Orderly.quiet (h : σ.Orderly mallow text action) :
    ∀ l ∈ action.daemonSteps text mallow, σ.world.Quiet l := by
  obtain ⟨hnotifier, hcommit, hupdate⟩ := h
  intro l hl
  obtain ⟨call, hcall, rfl⟩ := Option.map_eq_some_iff.mp (Option.mem_toList.mp hl)
  cases call with
  | create uuid new =>
    refine ⟨trivial, Or.inr ⟨hnotifier, hcommit, ?_⟩⟩
    intro n hn
    obtain ⟨tenantUuid, -, rfl, -⟩ := ServiceCall.announced_create hn
    trivial
  | delete uuid tenants user =>
    refine ⟨trivial, Or.inr ⟨hnotifier, hcommit, ?_⟩⟩
    intro n hn
    obtain ⟨s, -, rfl⟩ := ServiceCall.announced_delete hn
    trivial
  | update uuid new order tenants user =>
    obtain ⟨hglobal, horder⟩ := hupdate uuid new order tenants user hcall
    refine ⟨horder, Or.inr ⟨hnotifier, hcommit, ?_⟩⟩
    intro n hn
    obtain ⟨s, -, rfl, -⟩ := ServiceCall.announced_update hn
    exact keepsHeaders_of_notMem hglobal

theorem RestApi.Orderly.serving (h : σ.Orderly mallow text action)
    (hw : σ.world.Serving master) : (σ.step mallow text master action).world.Serving master := by
  have hquiet := h.quiet
  rw [RestApi.step_world]
  cases hsteps : action.call? text mallow with
  | none =>
    rw [RestAction.daemonSteps, hsteps]
    exact hw
  | some call =>
    rw [RestAction.daemonSteps, hsteps] at hquiet ⊢
    exact hw.step (hquiet _ List.mem_cons_self)

variable (mallow text master) (serviceManager : String → Option EntryPoint) (config : HookConfig)

open Classical in
/-- The requests are what the daemon sees of them, calls of its service; after orderly ones it
hands to the task queue, for every message, the hooks of the stored subscriptions that ask for
it. -/
theorem requests_keep_hooks (σ : RestApi) (actions : List RestAction) :
    let now := (actions.foldl (RestApi.step mallow text master) σ).world
    now = (actions.flatMap (RestAction.daemonSteps text mallow)).foldl (World.step master) σ.world ∧
    (σ.world.Serving master → Run.Along (RestApi.step mallow text master)
        (RestApi.Orderly mallow text) σ actions →
      ∀ (m : Message) (d : BusDelivery),
        ∃ done, d.dispatch serviceManager config now.handler.busConsumer m = .ok done ∧
          ((d.submitted serviceManager config done.invoked).map HookRunnerArgs.hook).Perm
            ((now.database.filter fun s => s.Asks master m).filterMap fun s =>
              hookOf serviceManager config (dump s) m.payload)) := by
  intro now
  constructor
  · induction actions generalizing σ with
    | nil => rfl
    | cons action actions ih =>
      have hrest := ih (σ.step mallow text master action)
      dsimp only at hrest
      rw [List.flatMap_cons, List.foldl_append, ← RestApi.step_world, ← hrest]
      rfl
  · intro hserving horderly m d
    have hrun : Run.Always (RestApi.step mallow text master)
        (fun σ => σ.world.Serving master) σ actions := by
      refine Run.always_of_along (J := fun σ => σ.world.Serving master) ?_ (fun _ hσ => hσ)
        hserving horderly
      intro τ action hτ haction
      exact haction.serving hτ
    have hnow : now.Serving master := hrun actions List.prefix_rfl
    exact hnow.agreeing.agrees.dispatch_hooks hnow.agreeing.exact hnow.exchangeType d m

end Orderly

def callCreated (headers : List (String × HeaderValue)) : Message where
  name := "call_created"
  payload := .obj []
  headers :=
    headers.foldl (fun h p => h.insert p.1 p.2) (Finmap.singleton "name" (.str "call_created"))

def aliceCall : Message := callCreated [("tenant_uuid", .str alice.tenantUuid),
  ("origin_uuid", .str alice.xivoUuid), ("user_uuid:" ++ alice.userUuid, .bool true)]

def alicePost : RestAction :=
  .me alice.any none (.post "8b6d3f5e-0d3f-4f0e-9a53-3b8b1d3f5e01" forgedBody)

open Classical in
/-- A user subscribes to calls, and gets the hook of one. -/
theorem requests_keep_hooks_post :
    let σ : RestApi := ⟨emptyWorld, fun _ => none⟩
    let now := (RestApi.step AdminMallow.plain Json.asString "master" σ alicePost).world
    let serviceManager : String → Option EntryPoint := fun _ => some ⟨"mobile.plugin", "Service"⟩
    let d : BusDelivery := ⟨fun _ => "0b9d2d5e-4a62-4bd0-8b2b-7f3f6a2f8c05", fun _ _ => .ok ()⟩
    now.database.map (·.events) = [["call_created"]] ∧
      ∃ done, d.dispatch serviceManager ⟨10, 2⟩ now.handler.busConsumer aliceCall = .ok done ∧
        ((d.submitted serviceManager ⟨10, 2⟩ done.invoked).map HookRunnerArgs.hook).Perm
          ((now.database.filter fun s => s.Asks "master" aliceCall).filterMap fun s =>
            hookOf serviceManager ⟨10, 2⟩ (dump s) aliceCall.payload) := by
  intro σ now serviceManager d
  have hserving : σ.world.Serving "master" := ⟨agreeing_emptyWorld, rfl⟩
  have horderly : σ.Orderly AdminMallow.plain Json.asString alicePost := by
    refine ⟨by decide, by decide, ?_⟩
    intro uuid new order tenants user hcall
    obtain ⟨subscription, kwargs, -, -, hcreate⟩ := UserRequest.meCall_post hcall
    cases hcreate
  refine ⟨by decide, ?_⟩
  exact (requests_keep_hooks AdminMallow.plain Json.asString "master" serviceManager ⟨10, 2⟩ σ
    [alicePost]).2 hserving ⟨horderly, trivial⟩ aliceCall d

end WazoWebhookd

import WazoWebhookd.Mobile.FcmPayload
import WazoWebhookd.Mobile.PushDelivery

/-! A push through the clients of FCM: what is posted for it, what comes of the responses, and how
often its hook is attempted. -/
namespace WazoWebhookd
open ExceptionClasses RaisedClass Failing

def FcmError.raised : FcmError → FcmException
  | .invalidDataError message => ⟨invalidDataErrorClass, [.str message]⟩

/-- Not the exception that asks the hook to be attempted again. -/
def FcmException.EndsHook (e : FcmException) : Prop := ¬ e.cls.Derives retryAfterExceptionClass

theorem FcmException.endsHook {c : RaisedClass} (hc : ¬ c.Derives retryAfterExceptionClass)
    (args : List Json) : EndsHook ⟨c, args⟩ := hc

namespace BaseAPI

section Client
variable (jsonDumps : FcmPayload → Except FcmException String)

/-- The text that `parse_payload` makes of a call. -/
def payloadText (call : FcmCall) : Except FcmException String := do
  let payload ← call.payload.mapError FcmError.raised
  jsonDumps payload

def notify (depth : ℕ) (calls : ℕ → SessionPost) (call : FcmCall) :
    ClientM FcmResponseDict := do
  let payload ← ofExcept (payloadText jsonDumps call)
  sendRequest depth (fun _ => calls) [payload]
  let session ← get
  ofExcept (parseResponses session.sendRequestResponses)

end Client

/-- FCM takes the push: a 200 that has a text, which is an object with a name. -/
structure Accepts (response : FcmHTTPResponse) : Prop where
  status : response.statusCode = 200
  nonempty : isEmptyResponse response = .ok false
  named : ∃ fields name, response.json = some (.obj fields) ∧
    fields.lookup "name" = some name ∧ name.truthy

section Parse
variable {response : FcmHTTPResponse} {parsed : FcmResponseDict}

theorem parseResponses_singleton (response : FcmHTTPResponse) :
    parseResponses [response] = parseResponse {} response := by
  unfold parseResponses
  rw [List.foldlM_cons]
  cases parseResponse {} response <;> rfl

theorem nameItem_truthy_iff {json : Json} :
    (∃ name, nameItem json = .ok name ∧ name.truthy) ↔
      ∃ fields name, json = .obj fields ∧ fields.lookup "name" = some name ∧ name.truthy := by
  cases json with
  | obj fields =>
    cases hlookup : fields.lookup "name" with
    | none => simp [nameItem, hlookup, Json.truthy]
    | some name => simp [nameItem, hlookup]
  | _ => simp [nameItem]

/-- A success is read of a response by which FCM takes the push, and of no other. -/
theorem parseResponse_success_iff (hparsed : parsed.success = 0) :
    (∃ parsed', parseResponse parsed response = .ok parsed' ∧ 1 ≤ parsed'.success) ↔
      Accepts response := by
  constructor
  · rintro ⟨parsed', hok, hsuccess⟩
    have hstatus := statusCode_of_parseResponse hok
    unfold parseResponse at hok
    rw [hstatus] at hok
    obtain ⟨empty, hempty, hok⟩ := Except.exists_of_bind_eq_ok hok
    cases empty with
    | true => cases hok
    | false =>
      obtain ⟨json, hjson, hok⟩ := Except.exists_of_bind_eq_ok hok
      obtain ⟨name, hname, hok⟩ := Except.exists_of_bind_eq_ok hok
      split_ifs at hok with htruthy
      · obtain ⟨fields, name', rfl, hlookup, htruthy'⟩ :=
          nameItem_truthy_iff.mp ⟨name, hname, htruthy⟩
        have hsome : response.json = some (.obj fields) := by
          unfold responseJson at hjson
          split at hjson
          · next h => rw [h, Except.ok.inj hjson]
          · cases hjson
        exact ⟨hstatus, hempty, fields, name', hsome, hlookup, htruthy'⟩
      · cases hok
        exact absurd hsuccess (by simp [hparsed])
  · rintro ⟨hstatus, hempty, fields, name, hjson, hlookup, htruthy⟩
    refine ⟨{ parsed with success := 1, topicMessageId := name, results := [.obj fields] }, ?_,
      by simp⟩
    have hitem : nameItem (.obj fields) = .ok name := by
      rw [nameItem, hlookup]
      rfl
    unfold parseResponse
    rw [hstatus]
    simp only [hempty, responseJson, hjson, hitem, Bind.bind, Except.bind, if_pos htruthy]
    rfl

theorem endsHook_pyIntOf {s : String} {e : FcmException} (h : pyIntOf s = .error e) :
    e.EndsHook := by
  unfold pyIntOf at h
  split at h <;> cases h
  exact FcmException.endsHook (by decide) _

theorem endsHook_responseJson {e : FcmException} (h : responseJson response = .error e) :
    e.EndsHook := by
  unfold responseJson at h
  split at h <;> cases h
  exact FcmException.endsHook (by decide) _

theorem endsHook_errorItem {json : Json} {e : FcmException} (h : errorItem json = .error e) :
    e.EndsHook := by
  unfold errorItem at h
  split at h
  · split at h <;> cases h
    exact FcmException.endsHook (by decide) _
  · cases h
    exact FcmException.endsHook (by decide) _

theorem endsHook_nameItem {json : Json} {e : FcmException} (h : nameItem json = .error e) :
    e.EndsHook := by
  unfold nameItem at h
  split at h <;> cases h
  exact FcmException.endsHook (by decide) _

theorem endsHook_isEmptyResponse {e : FcmException} (h : isEmptyResponse response = .error e) :
    e.EndsHook := by
  unfold isEmptyResponse at h
  split at h
  · cases h
  · next value _ =>
    cases hint : pyIntOf value with
    | ok i =>
      rw [hint] at h
      cases h
    | error e' =>
      rw [hint] at h
      cases h
      exact endsHook_pyIntOf hint

/-- Whatever is wrong with a response, the exception is not the one that asks for a retry. -/
theorem endsHook_parseResponse {e : FcmException} (h : parseResponse parsed response = .error e) :
    e.EndsHook := by
  unfold parseResponse at h
  split at h
  · rcases Except.bind_eq_error_iff.mp h with hempty | ⟨empty, -, h⟩
    · exact endsHook_isEmptyResponse hempty
    · cases empty with
      | true =>
        cases h
        exact FcmException.endsHook (by decide) _
      | false =>
        rcases Except.bind_eq_error_iff.mp h with hjson | ⟨json, -, h⟩
        · exact endsHook_responseJson hjson
        · rcases Except.bind_eq_error_iff.mp h with hname | ⟨name, -, h⟩
          · exact endsHook_nameItem hname
          · split_ifs at h <;> cases h
  · cases h
    exact FcmException.endsHook (by decide) _
  · cases h
    exact FcmException.endsHook (by decide) _
  · rcases Except.bind_eq_error_iff.mp h with hjson | ⟨json, -, h⟩
    · exact endsHook_responseJson hjson
    · rcases Except.bind_eq_error_iff.mp h with hitem | ⟨error, -, h⟩
      · exact endsHook_errorItem hitem
      · cases h
        exact FcmException.endsHook (by decide) _
  · cases h
    exact FcmException.endsHook (by decide) _
  · rcases Except.bind_eq_error_iff.mp h with hserver | ⟨error, -, h⟩
    · rcases tryExcept_eq_error hserver with hserver | ⟨e', -, hserver⟩
      · rcases tryExcept_eq_error hserver with hserver | ⟨e', -, hserver⟩
        · rcases Except.bind_eq_error_iff.mp hserver with hjson | ⟨json, -, hitem⟩
          · exact endsHook_responseJson hjson
          · exact endsHook_errorItem hitem
        · cases hserver
      · cases hserver
    · cases h
      exact FcmException.endsHook (by decide) _

theorem endsHook_parseResponses {responses : List FcmHTTPResponse} {e : FcmException}
    (h : parseResponses responses = .error e) : e.EndsHook := by
  unfold parseResponses at h
  generalize ({} : FcmResponseDict) = start at h
  induction responses generalizing start with
  | nil => cases h
  | cons response responses ih =>
    rw [List.foldlM_cons] at h
    rcases Except.bind_eq_error_iff.mp h with hfirst | ⟨next, -, hrest⟩
    · exact endsHook_parseResponse hfirst
    · exact ih next hrest

theorem endsHook_asksRetry {e : FcmException} (h : asksRetry response = .error e) :
    e.EndsHook := by
  unfold asksRetry at h
  split at h
  · cases h
  · next value _ =>
    cases hint : pyIntOf value with
    | ok i =>
      rw [hint] at h
      cases h
    | error e' =>
      rw [hint] at h
      cases h
      exact endsHook_pyIntOf hint

end Parse

section Raises
variable {jsonDumps : FcmPayload → Except FcmException String} {calls : ℕ → SessionPost}

theorem raisesOnly_doRequest (hcalls : ∀ i e, (calls i).result = .error e → e.EndsHook)
    (payload : String) (depth : ℕ) :
    RaisesOnly FcmException.EndsHook (doRequest payload depth calls) := by
  induction depth generalizing calls with
  | zero => exact raisesOnly_throw (FcmException.endsHook (by decide) [])
  | succ depth ih =>
    have hpost : RaisesOnly FcmException.EndsHook (sessionPost payload (calls 0)) :=
      (raisesOnly_modify _).bind fun _ => raisesOnly_ofExcept (hcalls 0)
    refine hpost.bind fun response => ?_
    refine (raisesOnly_ofExcept fun e => endsHook_asksRetry).bind fun again => ?_
    cases again with
    | true => exact ih fun i => hcalls (i + 1)
    | false => exact raisesOnly_pure _

theorem raisesOnly_sendPayloads (hcalls : ∀ i e, (calls i).result = .error e → e.EndsHook)
    (depth : ℕ) (payloads : List String) :
    RaisesOnly FcmException.EndsHook (sendPayloads depth (fun _ => calls) payloads) := by
  induction payloads with
  | nil => exact raisesOnly_pure _
  | cons payload payloads ih =>
    refine (raisesOnly_doRequest hcalls payload depth).bind fun response => ?_
    exact (raisesOnly_modify _).bind fun _ => ih

theorem endsHook_payloadText (hdumps : ∀ payload e, jsonDumps payload = .error e → e.EndsHook)
    {call : FcmCall} {e : FcmException} (h : payloadText jsonDumps call = .error e) :
    e.EndsHook := by
  rcases Except.bind_eq_error_iff.mp h with hpayload | ⟨payload, -, hdump⟩
  · cases hcall : call.payload with
    | ok payload =>
      rw [hcall] at hpayload
      cases hpayload
    | error error =>
      rw [hcall] at hpayload
      cases error
      cases hpayload
      exact FcmException.endsHook (by decide) _
  · exact hdumps payload e hdump

theorem raisesOnly_notify (hdumps : ∀ payload e, jsonDumps payload = .error e → e.EndsHook)
    (hcalls : ∀ i e, (calls i).result = .error e → e.EndsHook) (depth : ℕ) (call : FcmCall) :
    RaisesOnly FcmException.EndsHook (notify jsonDumps depth calls call) := by
  have htext : ∀ e, payloadText jsonDumps call = .error e → e.EndsHook :=
    fun e => endsHook_payloadText hdumps
  refine (raisesOnly_ofExcept htext).bind fun payload => RaisesOnly.bind ?_ fun _ => ?_
  · exact (raisesOnly_modify _).bind fun _ => raisesOnly_sendPayloads hcalls depth _
  · refine raisesOnly_get.bind fun session => ?_
    exact raisesOnly_ofExcept fun e => endsHook_parseResponses

end Raises

section Spec
variable {jsonDumps : FcmPayload → Except FcmException String} {depth : ℕ}
  {calls : ℕ → SessionPost} {call : FcmCall} {w : Session}

theorem exec_notify_of_error {e : FcmException} (h : payloadText jsonDumps call = .error e) :
    exec (notify jsonDumps depth calls call) w = (.error e, w) := by
  have htext : exec (ofExcept (payloadText jsonDumps call) : ClientM String) w = (.error e, w) := by
    rw [exec_ofExcept, h]
  exact exec_bind_of_error htext _

theorem exec_notify_of_ok {text : String} (h : payloadText jsonDumps call = .ok text) :
    (exec (notify jsonDumps depth calls call) w).2.posts =
        w.posts ++ postsOf text depth calls ∧
      ((∃ last response, Retry.Reaches again Final depth calls ∧
          (Retry.seen again depth calls).getLast? = some last ∧ last.result = .ok response ∧
          (exec (notify jsonDumps depth calls call) w).1 = parseResponse {} response) ∨
        (¬ Retry.Reaches again Final depth calls ∧
          ∃ e, (exec (notify jsonDumps depth calls call) w).1 = .error e)) := by
  set kept : Session := { w with sendRequestResponses := [] } with hkept
  have htext : exec (ofExcept (payloadText jsonDumps call) : ClientM String) w = (.ok text, w) := by
    rw [exec_ofExcept, h]
  have hsend : exec (sendRequest depth (fun _ => calls) [text]) w =
      exec (sendPayloads depth (fun _ => calls) [text]) kept := rfl
  have hposts := exec_doRequest_posts text depth calls kept
  have hresult := exec_doRequest_result text depth calls kept
  rw [notify, exec_bind_of_ok htext]
  cases hrun : exec (doRequest text depth calls) kept with
  | mk result w' =>
    rw [hrun] at hposts hresult
    have hw' : w'.posts = w.posts ++ postsOf text depth calls := congrArg Session.posts hposts
    cases result with
    | error e =>
      have hfails : exec (sendRequest depth (fun _ => calls) [text]) w = (.error e, w') :=
        hsend.trans (exec_bind_of_error hrun _)
      rw [exec_bind_of_error hfails]
      exact ⟨hw', .inr ⟨hresult, e, rfl⟩⟩
    | ok response =>
      obtain ⟨hreaches, last, hlast, hcall⟩ := hresult
      have hreturns : exec (sendRequest depth (fun _ => calls) [text]) w =
          (.ok (), { w' with sendRequestResponses := w'.sendRequestResponses ++ [response] }) :=
        hsend.trans (exec_bind_of_ok hrun _)
      have hresponses : w'.sendRequestResponses = [] :=
        congrArg Session.sendRequestResponses hposts
      rw [exec_bind_of_ok hreturns]
      simp only [exec_bind, exec_get, exec_ofExcept]
      refine ⟨hw', .inl ⟨last, response, hreaches, hlast, hcall, ?_⟩⟩
      rw [hresponses, List.nil_append, parseResponses_singleton]

theorem getLast?_seen_of_final {n : ℕ} (hn : n < depth)
    (hbefore : ∀ i < n, again (calls i)) (hfinal : Final (calls n)) :
    (Retry.seen again depth calls).getLast? = some (calls n) := by
  rw [Retry.seen_eq_map_range hn hbefore fun _ => hfinal.not_again]
  simp [List.range_succ]

end Spec

section Token
variable {args : PayloadArgs} {payload : FcmPayload}

theorem token_notMem_data {field : FcmPayload} (h : args.data = .ok field) :
    "token" ∉ field.map (·.1) := by
  unfold PayloadArgs.data at h
  split at h
  · cases h
    split_ifs <;> simp
  · split_ifs at h
    cases h
    simp

theorem token_of_parsePayload (h : parsePayload args = .ok payload)
    (hextra : args.extraKwargs = []) :
    payload.lookup "token" =
      (truthy args.registrationToken).map fun token => .json (.str token) := by
  unfold parsePayload at h
  obtain ⟨ttl, -, h⟩ := Except.exists_of_bind_eq_ok h
  obtain ⟨field, hfield, h⟩ := Except.exists_of_bind_eq_ok h
  obtain ⟨body, -, h⟩ := Except.exists_of_bind_eq_ok h
  obtain ⟨title, -, h⟩ := Except.exists_of_bind_eq_ok h
  have hdata : field.lookup "token" = none :=
    KeyedList.lookup_eq_none_iff_notMem.mpr (token_notMem_data hfield)
  have hdryRun : List.lookup "token"
      (if args.dryRun then [("dry_run", FcmField.json (.bool true))] else []) = none := by
    split_ifs <;> rfl
  obtain rfl := Except.ok.inj h
  rw [KeyedList.lookup_setItem, if_neg (by decide), hextra]
  change List.lookup "token" (_ ++ _ ++ field) = _
  rw [List.lookup_append, List.lookup_append, hdata, hdryRun]
  unfold optionalItem
  cases truthy args.registrationToken <;> rfl

/-- A message is for the device of its call. -/
theorem token_of_payload {call : FcmCall} (h : call.payload = .ok payload) :
    payload.lookup "token" = (truthy call.registration).map fun token => .json (.str token) := by
  unfold FcmCall.payload at h
  split at h
  · exact token_of_parsePayload h rfl
  · split_ifs at h
    exact token_of_parsePayload h rfl

end Token

/-- A push counts as a success exactly when the first call of `session.post` that gives a response
which does not tell to come back later gives one by which FCM takes it. What is posted until then is
the message of the call, the same each time and for the same device. -/
theorem fcm_push_accepted_iff (jsonDumps : FcmPayload → Except FcmException String) (depth : ℕ)
    (calls : ℕ → SessionPost) (call : FcmCall) (w : Session) :
    ((∃ parsed, (exec (notify jsonDumps depth calls call) w).1 = .ok parsed ∧
        1 ≤ parsed.success) ↔
      ∃ text n response, payloadText jsonDumps call = .ok text ∧ n < depth ∧
        (∀ i < n, asksAgain (calls i) = .ok true) ∧ (calls n).result = .ok response ∧
        asksRetry response = .ok false ∧ Accepts response) ∧
    ∀ sent ∈ newPosts (notify jsonDumps depth calls call) w, ∃ payload,
      call.payload = .ok payload ∧ jsonDumps payload = .ok sent.payload ∧
        payload.lookup "token" =
          (truthy call.registration).map fun token => .json (.str token) := by
  cases htext : payloadText jsonDumps call with
  | error e =>
    rw [newPosts, exec_notify_of_error htext]
    simp
  | ok text =>
    obtain ⟨hposts, hresult⟩ := @exec_notify_of_ok jsonDumps depth calls call w text htext
    constructor
    · constructor
      · rintro ⟨parsed, hok, hsuccess⟩
        rcases hresult with
          ⟨last, response, ⟨n, hn, hbefore, hfinal⟩, hlast, hcall, hparse⟩ | ⟨-, e, herror⟩
        · rw [getLast?_seen_of_final hn hbefore hfinal] at hlast
          obtain rfl := Option.some.inj hlast
          refine ⟨text, n, response, rfl, hn, fun i hi => again_iff.mp (hbefore i hi), hcall,
            ?_, ?_⟩
          · rw [Final, asksAgain, Except.bind_of_eq_ok hcall] at hfinal
            exact hfinal
          · exact (parseResponse_success_iff rfl).mp ⟨parsed, hparse.symm.trans hok, hsuccess⟩
        · rw [herror] at hok
          cases hok
      · rintro ⟨-, n, response, -, hn, hbefore, hcall, hretry, haccepts⟩
        have hbefore' : ∀ i < n, again (calls i) := fun i hi => again_iff.mpr (hbefore i hi)
        have hfinal : Final (calls n) := by
          rw [Final, asksAgain, Except.bind_of_eq_ok hcall]
          exact hretry
        rcases hresult with ⟨last, response', -, hlast, hcall', hparse⟩ | ⟨hnot, -⟩
        · rw [getLast?_seen_of_final hn hbefore' hfinal] at hlast
          obtain rfl := Option.some.inj hlast
          obtain rfl := Except.ok.inj (hcall'.symm.trans hcall)
          rw [hparse]
          exact (parseResponse_success_iff rfl).mpr haccepts
        · exact absurd ⟨n, hn, hbefore', hfinal⟩ hnot
    · intro sent hsent
      obtain ⟨payload, hpayload, hdumps⟩ := Except.exists_of_bind_eq_ok htext
      have hcall : call.payload = .ok payload := by
        cases hcall : call.payload with
        | error e =>
          rw [hcall] at hpayload
          cases hpayload
        | ok payload' =>
          rw [hcall] at hpayload
          rw [Except.ok.inj hpayload]
      rw [newPosts, hposts, List.drop_left, postsOf] at hsent
      obtain ⟨post, -, hsent⟩ := List.mem_flatMap.mp hsent
      obtain ⟨answer, -, rfl⟩ := List.mem_map.mp hsent
      exact ⟨payload, hcall, hdumps, token_of_payload hcall⟩

end BaseAPI

def v1Notify (jsonDumps : FcmPayload → Except FcmException String) (depth : ℕ)
    (calls : ℕ → SessionPost) (call : FcmCall) : Except FcmException FcmResponseDict :=
  (exec (BaseAPI.notify jsonDumps depth calls call) ⟨[], []⟩).1

/-- What the libraries under the clients raise is not the exception of `fcm_client` that asks for
a retry. -/
structure PushClients.Documented (clients : PushClients) : Prop where
  legacy : ∀ call e, clients.legacyBase.Raises call e → e.EndsHook
  v1 : ∃ jsonDumps depth calls, clients.v1 = v1Notify jsonDumps depth calls ∧
    (∀ payload e, jsonDumps payload = .error e → e.EndsHook) ∧
    ∀ i e, (calls i).result = .error e → e.EndsHook

section Clients
variable {clients : PushClients} {call : FcmCall} {e : FcmException}

theorem endsHook_raiseLast {responses : List FcmHTTPResponse}
    (h : FCMNotificationLegacy.raiseLast responses = .error e) : e.EndsHook := by
  unfold FCMNotificationLegacy.raiseLast at h
  split at h <;> cases h
  · exact FcmException.endsHook (by decide) _
  · exact FcmException.endsHook (by decide) _

/-- Neither client ever asks for a retry. -/
theorem PushClients.Documented.endsHook (hc : clients.Documented)
    (h : clients.notify call = .error e) : e.EndsHook := by
  unfold PushClients.notify at h
  split at h
  · unfold FCMNotificationLegacy.notify at h
    rcases Except.bind_eq_error_iff.mp h with hsend | ⟨responses, hsend, hparse⟩
    · exact hc.legacy call e (.inl hsend)
    · rcases tryExcept_eq_error hparse with hbase | ⟨e', -, hlast⟩
      · exact hc.legacy call e (.inr ⟨responses, hsend, hbase⟩)
      · exact endsHook_raiseLast hlast
  · obtain ⟨jsonDumps, depth, calls, hv1, hdumps, hcalls⟩ := hc.v1
    rw [hv1] at h
    exact BaseAPI.raisesOnly_notify hdumps hcalls depth call _ e h

/-- What FCM answers in an attempt is what its client makes of the call. -/
theorem answer_of_pushContact {libs : PushLibraries} {services : PushServices}
    {event : MobileEvent} {answer : Except FcmException FcmResponseDict}
    (h : pushContact libs services event = .fcm call answer) : answer = services.fcm call := by
  unfold pushContact at h
  split_ifs at h
  split at h <;> cases h
  rfl

theorem PushClients.Documented.not_retryable (hc : clients.Documented)
    (loads : String → Except JsonLoadsError Json) :
    ¬ (PushContact.fcm call (clients.notify call)).Retryable loads := by
  cases hanswer : clients.notify call with
  | ok response => exact id
  | error e => exact hc.endsHook hanswer

end Clients

section Main
variable (serviceManager : String → Option EntryPoint) (config : HookConfig) (master : String)
  (world : String → ℕ → LoggedAttempt) {w : World} (hw : w.Serving master) (ls : List SystemStep)
  (hv : Run.Along (WebhookSystem.step serviceManager config master world)
    (WebhookSystem.Valid serviceManager config master) (.start w) ls)
include hw hv

/-- A hook whose push goes to FCM is attempted once, however many attempts the configuration allows
and whatever the client raises, and leaves at most one log, which is a success when the client
returned and an error when it raised. -/
theorem fcm_pushes_attempted_once :
    let step := WebhookSystem.step serviceManager config master world
    let σ := ls.foldl step (.start w)
    let attempts := (WebhookSystem.start w).pool.attempts world
      ((WebhookSystem.start w).poolRun serviceManager config master world ls)
    ∀ pre m d post, ls = pre ++ .message m d :: post →
      ∀ t ∈ (pre.foldl step (.start w)).tasksOf serviceManager config m d,
        ∀ texts libs services name data, PushRuns texts libs services name data world t →
          ∀ clients : PushClients, clients.Documented → (services 0).fcm = clients.notify →
            ∀ call answer, pushContacts libs services name data t 0 = .fcm call answer →
              let made := attempts.filter fun a => a.1 = t.hookUuid
              let rows := σ.pool.log.filter fun row => row.uuid = t.hookUuid
              made.length ≤ 1 ∧ rows.length ≤ 1 ∧ ∀ row ∈ rows,
                row.attempts = 1 ∧ (row.status = .success ↔ ∃ response, answer = .ok response) ∧
                  (row.status = .error ↔ ∃ e, answer = .error e) := by
  intro step σ attempts pre m d post hls t ht texts libs services name data hruns clients hclients
    hfcm call answer hcontact made rows
  have hconstraints := hw.agreeing.constraints
  have hanswer : answer = clients.notify call := by
    rw [← hfcm]
    exact answer_of_pushContact hcontact
  have hfirst : ¬ (pushContacts libs services name data t 0).Retryable texts.loads := by
    rw [hcontact, hanswer]
    exact hclients.not_retryable texts.loads
  obtain ⟨p, jobs, h, hjobs, -⟩ := WebhookSystem.exists_shadow hconstraints hv
  obtain ⟨-, hrows, -⟩ := h.rows_of ((hjobs t.hookUuid t).mpr ⟨⟨pre, m, d, post, hls, ht⟩, rfl⟩)
  obtain ⟨halone, hrow_of⟩ := hruns.tells.row_of_not (WebhookSystem.mem_tasksOf ht).1 hfirst
  refine ⟨?_, hrows.length_le.trans halone, fun row hrow => ?_⟩
  · obtain ⟨hmade, -⟩ := WebhookSystem.made_of_exchange hconstraints hv hls ht hruns.tells
    rw [exchange_of_not hfirst] at hmade
    simpa using hmade.length_le
  · obtain ⟨hattempts, hstatus⟩ := hrow_of row (hrows.subset hrow)
    have hsuccess := hruns.tells.success_iff 0
    rw [hcontact] at hsuccess
    have hanswered : row.status = .success ↔ ∃ response, answer = .ok response := by
      rw [hstatus, HookOutcome.lastStatus_eq_success_iff, hsuccess]
      cases answer with
      | ok response => exact iff_of_true trivial ⟨response, rfl⟩
      | error e => exact iff_of_false id nofun
    refine ⟨hattempts, hanswered, ?_⟩
    have herror : row.status = .error ↔ ¬ row.status = .success := by
      rw [hstatus]
      exact HookOutcome.lastStatus_eq_error_iff
    rw [herror, hanswered]
    cases answer <;> simp

end Main

def accountPush : PushNotification :=
  { legacyPush with externalConfig := { applePush.externalConfig with
      fcmServiceAccountInfo := some "account" } }

/-- An FCM that fails. -/
def downClients : PushClients :=
  { PushClients.answering [plainResponse 500 "down"] with
    v1 := v1Notify (fun _ => .ok "message") 1000 fun _ => .single (plainResponse 500 "down") }

theorem documented_downClients : downClients.Documented where
  legacy := by
    rintro call e (hsend | ⟨responses, hsend, hparse⟩)
    · cases hsend
    · cases hsend
      cases hparse
      exact FcmException.endsHook (by decide) _
  v1 := ⟨fun _ => .ok "message", 1000, fun _ => .single (plainResponse 500 "down"), rfl, nofun,
    nofun⟩

def downServices (_ : ℕ) : PushServices where
  externalData _ := .ok accountPush
  apns _ := .exception ""
  fcm := downClients.notify
  formats := ⟨fun _ => "", ""⟩

def accountLibraries : PushLibraries := { PushLibraries.plain with loads := fun _ => .ok .null }

def downWorld (_hookUuid : String) (i : ℕ) : LoggedAttempt where
  outcome := (pushContact accountLibraries (downServices i)
    ⟨some "2f9ac4a6-1f6b-4a1e-8d0c-6f2b1f0c7d11", "user_missed_call", []⟩).outcome .plain
  started := i
  ended := i + 1
  subscriptionDeleted := false
  databaseError := none

/-- The push is lost, although the configuration allows ten attempts. -/
theorem fcm_pushes_attempted_once_down :
    let steps := hookSteps createMobile missedByUserEvent 3
    let σ := steps.foldl (WebhookSystem.step mobilePlugin ⟨10, 2⟩ "master" downWorld)
      (.start emptyWorld)
    let attempts := (WebhookSystem.start emptyWorld).pool.attempts downWorld
      ((WebhookSystem.start emptyWorld).poolRun mobilePlugin ⟨10, 2⟩ "master" downWorld steps)
    attempts = [("", 1)] ∧ σ.pool.log.length = 1 ∧
      ∀ row ∈ σ.pool.log, row.attempts = 1 ∧ row.status = .error := by
  intro steps σ attempts
  have hvalid : Run.Along (WebhookSystem.step mobilePlugin ⟨10, 2⟩ "master" downWorld)
      (WebhookSystem.Valid mobilePlugin ⟨10, 2⟩ "master") (.start emptyWorld) steps :=
    hookSteps_valid zeros_ne_missedCall rfl
  obtain ⟨t, ht, huuid, hruns, call, e, hcontact⟩ :
      ∃ t ∈ ([SystemStep.daemon (.call none createMobile)].foldl
          (WebhookSystem.step mobilePlugin ⟨10, 2⟩ "master" downWorld)
          (.start emptyWorld)).tasksOf mobilePlugin ⟨10, 2⟩ missedByUserEvent
            ⟨zeros, fun _ _ => .ok ()⟩,
        t.hookUuid = "" ∧ PushRuns .plain accountLibraries downServices "user_missed_call" []
          downWorld t ∧ ∃ call e, pushContacts accountLibraries downServices
            "user_missed_call" [] t 0 = .fcm call (.error e) :=
    ⟨_, List.mem_cons_self, rfl, ⟨⟨_, rfl, rfl, rfl⟩, fun _ => rfl⟩, _, _, rfl⟩
  obtain ⟨-, -, hrows⟩ := fcm_pushes_attempted_once mobilePlugin ⟨10, 2⟩ "master" downWorld
    serving_emptyWorld steps hvalid [.daemon (.call none createMobile)] missedByUserEvent
    ⟨zeros, fun _ _ => .ok ()⟩ _ rfl t ht _ _ _ _ _ hruns downClients documented_downClients rfl
    call _ hcontact
  have huuids : ∀ row ∈ σ.pool.log, row.uuid = "" := by decide
  refine ⟨by decide, by decide, fun row hrow => ?_⟩
  have hmem : row ∈ σ.pool.log.filter fun row => row.uuid = t.hookUuid :=
    List.mem_filter.mpr ⟨hrow, decide_eq_true ((huuids row hrow).trans huuid.symm)⟩
  obtain ⟨hattempts, -, herror⟩ := hrows row hmem
  exact ⟨hattempts, herror.mpr ⟨e, rfl⟩⟩

end WazoWebhookd

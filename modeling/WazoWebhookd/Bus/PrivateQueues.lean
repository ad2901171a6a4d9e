import WazoWebhookd.Bus.Consumer

/-! What a headers exchange would deliver if every handler owned a private queue, and
the equivalence of the shared queue's dispatch with it. -/
namespace WazoWebhookd
namespace HeadersExchange

inductive MatchMode
  | all
  | any
  deriving DecidableEq

/-- The `x-match` argument of a binding; an exchange knows two values of it. -/
def matchMode (arguments : Headers) : Option MatchMode :=
  match arguments.lookup "x-match" with
  | none => some .all
  | some (.str "all") => some .all
  | some (.str "any") => some .any
  | some _ => none

/-- The argument `k = v` of a binding is met: internal keys are not looked at. -/
def Meets (headers : Headers) (k : String) (v : HeaderValue) : Prop :=
  ∃ w, headers.lookup k = some w ∧ w.pyEq v = true

/-- A message with these headers reaches a queue bound with these arguments. -/
def Delivers (arguments headers : Headers) : Prop :=
  match matchMode arguments with
  | some .all => ∀ k v, arguments.lookup k = some v → ¬ startswith k "x-" → Meets headers k v
  | some .any => ∃ k v, arguments.lookup k = some v ∧ ¬ startswith k "x-" ∧ Meets headers k v
  | none => False

end HeadersExchange

open HeadersExchange

open Classical in
/-- The entries of `event` whose own queue, bound with their own arguments, gets the message. -/
noncomputable def Consumer.privateReceivers {F : Type*} (c : Consumer F) (event : String)
    (headers : Headers) : List (Entry F) :=
  (c.subscriptions event).filter fun entry => Delivers entry.binding.arguments headers

theorem Consumer.mem_privateReceivers {F : Type*} {c : Consumer F} {event : String}
    {headers : Headers} {entry : Entry F} :
    entry ∈ c.privateReceivers event headers ↔
      entry ∈ c.subscriptions event ∧ Delivers entry.binding.arguments headers := by
  simp [privateReceivers]

theorem hasHeader_filterKeys (headers : Headers) {k : String} {v : HeaderValue}
    (hk : ¬ startswith k "x-") :
    hasHeader (headers.filterKeys fun k => ¬ startswith k "x-") k v = true ↔
      Meets headers k v := by
  unfold hasHeader Meets
  rw [Finmap.lookup_filterKeys, if_pos hk]
  cases headers.lookup k <;> simp

private theorem lookup_external {s : Headers} {k : String} {v : HeaderValue} :
    (s.filterKeys fun k => ¬ startswith k "x-").lookup k = some v ↔
      s.lookup k = some v ∧ ¬ startswith k "x-" := by
  rw [Finmap.lookup_filterKeys]
  split_ifs with h <;> simp [h]

/-- The in-process match is the exchange's match of a binding of its own. -/
theorem checkHeadersMatch_delivers (headers : Headers) (binding : Binding)
    (hm : matchMode binding.arguments ≠ none) :
    ∃ b, checkHeadersMatch "headers" (some headers) binding = .ok b ∧
      (b = true ↔ Delivers binding.arguments headers) := by
  have hall : (binding.arguments.filterKeys fun k => ¬ startswith k "x-").all
      (hasHeader (headers.filterKeys fun k => ¬ startswith k "x-")) = true ↔
      ∀ k v, binding.arguments.lookup k = some v → ¬ startswith k "x-" → Meets headers k v := by
    rw [Finmap.all_eq_true]
    refine forall₂_congr fun k v => ?_
    rw [lookup_external]
    constructor
    · intro h hl hk
      exact (hasHeader_filterKeys headers hk).mp (h ⟨hl, hk⟩)
    · rintro h ⟨hl, hk⟩
      exact (hasHeader_filterKeys headers hk).mpr (h hl hk)
  have hany : (binding.arguments.filterKeys fun k => ¬ startswith k "x-").any
      (hasHeader (headers.filterKeys fun k => ¬ startswith k "x-")) = true ↔
      ∃ k v, binding.arguments.lookup k = some v ∧ ¬ startswith k "x-" ∧ Meets headers k v := by
    rw [Finmap.any_eq_true]
    refine exists₂_congr fun k v => ?_
    rw [lookup_external, and_assoc]
    refine and_congr_right fun _ => and_congr_right fun hk => ?_
    exact hasHeader_filterKeys headers hk
  unfold checkHeadersMatch Delivers
  unfold matchMode at hm ⊢
  refine ⟨_, rfl, ?_⟩
  split at hm <;> simp_all [HeaderValue.pyEq]

section Dispatch
variable {F P ε : Type*} (wantsHeaders : F → Bool)
  (call : ℕ → F → HandlerArgs P → Except ε Unit)

open Classical in
theorem dispatchLoop_invoked (payload : P) (headers : Headers) (entries : List (Entry F))
    (hm : ∀ entry ∈ entries, matchMode entry.binding.arguments ≠ none) (i : ℕ) :
    ∃ done, dispatchLoop wantsHeaders call "headers" payload (some headers) i entries = .ok done ∧
      done.invoked.map Prod.fst =
        entries.filter fun entry => Delivers entry.binding.arguments headers := by
  induction entries generalizing i with
  | nil => exact ⟨_, rfl, rfl⟩
  | cons entry rest ih =>
    have hrest : ∀ entry ∈ rest, matchMode entry.binding.arguments ≠ none := fun e he =>
      hm e (List.mem_cons_of_mem _ he)
    obtain ⟨b, hb, hd⟩ := checkHeadersMatch_delivers headers entry.binding
      (hm entry List.mem_cons_self)
    cases b with
    | false =>
      obtain ⟨done, hdone, hinv⟩ := ih hrest i
      refine ⟨done, ?_, ?_⟩
      · rw [dispatchLoop, hb]
        exact hdone
      · rw [hinv, List.filter_cons_of_neg]
        simpa using hd
    | true =>
      obtain ⟨done, hdone, hinv⟩ := ih hrest (i + 1)
      have hcons : (entry :: rest).filter
          (fun entry => decide (Delivers entry.binding.arguments headers)) =
          entry :: done.invoked.map Prod.fst := by
        rw [hinv, List.filter_cons_of_pos (by simpa using hd)]
      rw [hcons, dispatchLoop, hb]
      dsimp only
      rw [hdone]
      dsimp only
      -- An exception of the call only adds to what is logged.
      split <;> exact ⟨_, rfl, rfl⟩

/-- The handlers a message reaches through the shared queue are those it would have
reached through private queues, in subscription order and once per entry. -/
theorem dispatch_eq_privateReceivers (c : Consumer F) (hx : c.exchangeType = "headers")
    (event : String) (payload : P) (headers : Headers)
    (hm : ∀ entry ∈ c.subscriptions event, matchMode entry.binding.arguments ≠ none) :
    ∃ done, c.dispatch wantsHeaders call event payload (some headers) = .ok done ∧
      done.invoked.map Prod.fst = c.privateReceivers event headers := by
  unfold Consumer.dispatch Consumer.privateReceivers
  rw [hx]
  exact dispatchLoop_invoked wantsHeaders call payload headers _ hm 0

end Dispatch

/-- Two handlers under one event with different filters; the first one raises. -/
theorem dispatch_eq_privateReceivers_raising :
    let c := (((Consumer.empty "headers").subscribe "call_created" 0
      (Finmap.singleton "x-match" (.str "any"))).subscribe "call_created" 1 ∅ : Consumer ℕ)
    let headers : Headers := Finmap.singleton "name" (.str "call_created")
    let call : ℕ → ℕ → HandlerArgs Unit → Except Unit Unit :=
      fun _ fn _ => if fn = 0 then .error () else .ok ()
    ∃ done, c.dispatch (fun _ => false) call "call_created" () (some headers) = .ok done ∧
      done.invoked.map Prod.fst = c.privateReceivers "call_created" headers := by
  intro c headers call
  have hm : ∀ entry ∈ c.subscriptions "call_created",
      matchMode entry.binding.arguments ≠ none := by decide
  exact dispatch_eq_privateReceivers _ call c rfl "call_created" () headers hm

end WazoWebhookd

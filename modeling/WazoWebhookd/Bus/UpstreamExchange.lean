import Mathlib.Data.Finset.Basic
import Mathlib.Data.Finmap
import WazoWebhookd.Library.Run

/-! The exchange of webhookd, bound event by event to the upstream exchange: subscribers and
the consumer thread share the set of bindings without a lock. -/
namespace WazoWebhookd

/-- The next step of a call of `subscribe`, after its check of the consumer. -/
inductive SubscribePhase
  | bind
  | insert
  deriving DecidableEq

structure SubscribeCall where
  eventName : String
  phase : SubscribePhase
  deriving DecidableEq

/-- The connection of the consumer, what the broker has bound, the set `_bindings`, the calls
in progress, and the events of the calls that returned. -/
structure Upstream where
  connected : Bool
  declared : Bool
  bound : Finset String
  bindings : Finset String
  calls : Finmap fun _ : ℕ => SubscribeCall
  subscribed : Finset String

inductive UpstreamStep
  | check (call : ℕ) (eventName : String)
  | bind (call : ℕ)
  | bindFails (call : ℕ)
  | insert (call : ℕ)
  | connect
  | loss
  | declare

namespace Upstream

def init : Upstream := ⟨false, false, ∅, ∅, ∅, ∅⟩

/-- One atomic step; one that cannot be taken changes nothing. A `bind` goes through a
connection of its own, which may be down whatever that of the consumer is. -/
def step (isRunning : Upstream → Bool) (σ : Upstream) : UpstreamStep → Upstream
  | .check call eventName =>
    if call ∈ σ.calls then σ
    else
      let phase := if isRunning σ then SubscribePhase.bind else .insert
      { σ with calls := σ.calls.insert call ⟨eventName, phase⟩ }
  | .bind call =>
    match σ.calls.lookup call with
    | some ⟨eventName, .bind⟩ =>
      { σ with
        bound := insert eventName σ.bound
        calls := σ.calls.insert call ⟨eventName, .insert⟩ }
    | _ => σ
  | .bindFails call =>
    match σ.calls.lookup call with
    | some ⟨_, .bind⟩ => { σ with calls := σ.calls.erase call }
    | _ => σ
  | .insert call =>
    match σ.calls.lookup call with
    | some ⟨eventName, .insert⟩ =>
      { σ with
        bindings := insert eventName σ.bindings
        calls := σ.calls.erase call
        subscribed := insert eventName σ.subscribed }
    | _ => σ
  | .connect => if σ.connected then σ else { σ with connected := true, declared := false }
  | .loss => { σ with connected := false, declared := false, bound := ∅ }
  | .declare =>
    if σ.connected then { σ with declared := true, bound := σ.bound ∪ σ.bindings } else σ

/-- No subscribed event is mute while the consumer listens and no call is under way. -/
def StaysBound (σ : Upstream) : Prop :=
  σ.connected → σ.declared → σ.calls = ∅ → σ.subscribed ⊆ σ.bound

/-- The set `_bindings` is bound, calls in progress or not. -/
def BindingsBound (σ : Upstream) : Prop := σ.connected → σ.declared → σ.bindings ⊆ σ.bound

/-- An event that enters `_bindings` after the consumer has declared them is bound already. -/
def InsertsBound (σ : Upstream) : UpstreamStep → Prop
  | .insert call => ∀ eventName, σ.calls.lookup call = some ⟨eventName, .insert⟩ →
      σ.connected → σ.declared → eventName ∈ σ.bound
  | _ => True

section Step
variable {isRunning : Upstream → Bool} {σ : Upstream}

theorem subscribed_step (h : σ.subscribed = σ.bindings) (l : UpstreamStep) :
    (σ.step isRunning l).subscribed = (σ.step isRunning l).bindings := by
  cases l with
  | insert call =>
    simp only [step]
    split
    · simp only [h]
    · exact h
  | _ =>
    simp only [step]
    try split
    all_goals exact h

theorem bindingsBound_insert (h : σ.BindingsBound) (call : ℕ) :
    (σ.step isRunning (.insert call)).BindingsBound ↔ σ.InsertsBound (.insert call) := by
  simp only [step, InsertsBound]
  split
  · next eventName hcall =>
    constructor
    · intro hbound eventName' hcall' hconnected hdeclared
      obtain rfl : eventName = eventName' := by simpa [hcall] using hcall'
      exact hbound hconnected hdeclared (Finset.mem_insert_self _ _)
    · intro hinsert hconnected hdeclared
      exact Finset.insert_subset (hinsert eventName hcall hconnected hdeclared)
        (h hconnected hdeclared)
  · next hcall =>
    constructor
    · intro _ eventName hcall'
      exact absurd hcall' (hcall eventName)
    · exact fun _ => h

theorem bindingsBound_step (h : σ.BindingsBound) (l : UpstreamStep) :
    (σ.step isRunning l).BindingsBound ↔ σ.InsertsBound l := by
  cases l with
  | insert call => exact bindingsBound_insert h call
  | check call eventName =>
    simp only [step, InsertsBound, iff_true]
    split
    · exact h
    · exact h
  | bind call =>
    simp only [step, InsertsBound, iff_true]
    split
    · intro hconnected hdeclared
      exact (h hconnected hdeclared).trans (Finset.subset_insert _ _)
    · exact h
  | bindFails call =>
    simp only [step, InsertsBound, iff_true]
    split
    · exact h
    · exact h
  | connect =>
    simp only [step, InsertsBound, iff_true]
    split
    · exact h
    · intro _ hdeclared
      cases hdeclared
  | loss =>
    simp only [step, InsertsBound, iff_true]
    intro hconnected
    cases hconnected
  | declare =>
    simp only [step, InsertsBound, iff_true]
    split
    · intro _ _
      exact Finset.subset_union_right
    · exact h

end Step

/-- The bindings stay bound in the runs whose insertions are all in time, and then every
subscribed event stays bound. -/
theorem stays_bound_of_inserts_bound (isRunning : Upstream → Bool) (ls : List UpstreamStep) :
    (Run.Always (step isRunning) BindingsBound init ls ↔
        Run.Along (step isRunning) InsertsBound init ls) ∧
      (Run.Along (step isRunning) InsertsBound init ls →
        Run.Always (step isRunning) StaysBound init ls) := by
  have hinit : BindingsBound init := fun h => by cases h
  constructor
  · exact Run.always_iff_along (J := fun _ => True) (W := fun _ _ => True)
      (fun _ _ _ _ => trivial) (fun σ l _ hσ _ => bindingsBound_step hσ l) trivial hinit
      (Run.along_of_invariant (J := fun _ => True) (fun _ _ _ => trivial) (fun _ _ _ => trivial)
        trivial ls)
  · refine Run.always_of_along (J := fun σ => σ.BindingsBound ∧ σ.subscribed = σ.bindings)
      ?_ ?_ ⟨hinit, rfl⟩
    · rintro σ l ⟨hbound, hsubscribed⟩ hl
      exact ⟨(bindingsBound_step hbound l).mpr hl, subscribed_step hsubscribed l⟩
    · rintro σ ⟨hbound, hsubscribed⟩ hconnected hdeclared _
      exact hsubscribed ▸ hbound hconnected hdeclared

/-- The check is made before the consumer connects, the insertion after it has declared. -/
theorem stale_check_mutes_event :
    ¬ Run.Always (step Upstream.connected) StaysBound init
      [.check 0 "call_created", .connect, .declare, .insert 0] := by
  intro h
  have hend := h _ (List.prefix_refl _)
  exact absurd (hend (by decide) (by decide) (by decide)) (by decide)

end Upstream

end WazoWebhookd

import Mathlib.Logic.Function.Basic
import Mathlib.Data.List.Basic

/-! Threads over a shared state. A thread works through its tasks one after the other: the
first atomic step of a task either fails, which drops the task, or leaves the list of atomic
actions that finish it. A schedule says which thread takes each step. -/
namespace Interleaving

structure Thread (A T : Type*) where
  actions : List A
  pending : List T
  deriving DecidableEq

structure System (ι S A T : Type*) where
  shared : S
  thread : ι → Thread A T

namespace System
variable {ι S A T ε : Type*} [DecidableEq ι] (act : S → A → S)
  (start : S → T → Except ε (S × List A))

/-- One step of the thread `i`; a thread with nothing left to do does nothing. -/
def step (σ : System ι S A T) (i : ι) : System ι S A T :=
  match σ.thread i with
  | ⟨a :: actions, pending⟩ =>
    ⟨act σ.shared a, Function.update σ.thread i ⟨actions, pending⟩⟩
  | ⟨[], t :: pending⟩ =>
    match start σ.shared t with
    | .ok (s, actions) => ⟨s, Function.update σ.thread i ⟨actions, pending⟩⟩
    | .error _ => ⟨σ.shared, Function.update σ.thread i ⟨[], pending⟩⟩
  | ⟨[], []⟩ => σ

def run (σ : System ι S A T) (schedule : List ι) : System ι S A T :=
  schedule.foldl (step act start) σ

def Idle (σ : System ι S A T) : Prop := ∀ i, σ.thread i = ⟨[], []⟩

variable {act start} {σ : System ι S A T} {i : ι}

theorem step_of_action {a : A} {actions : List A} {pending : List T}
    (h : σ.thread i = ⟨a :: actions, pending⟩) :
    σ.step act start i =
      ⟨act σ.shared a, Function.update σ.thread i ⟨actions, pending⟩⟩ := by
  rw [step, h]

theorem step_of_start {t : T} {pending : List T} {s : S} {actions : List A}
    (h : σ.thread i = ⟨[], t :: pending⟩) (hs : start σ.shared t = .ok (s, actions)) :
    σ.step act start i = ⟨s, Function.update σ.thread i ⟨actions, pending⟩⟩ := by
  rw [step, h]
  dsimp only
  rw [hs]

theorem step_of_error {t : T} {pending : List T} {e : ε}
    (h : σ.thread i = ⟨[], t :: pending⟩) (hs : start σ.shared t = .error e) :
    σ.step act start i = ⟨σ.shared, Function.update σ.thread i ⟨[], pending⟩⟩ := by
  rw [step, h]
  dsimp only
  rw [hs]

theorem step_of_idle (h : σ.thread i = ⟨[], []⟩) : σ.step act start i = σ := by
  rw [step, h]

section Invariant
variable {P : S → Prop} {Q : A → Prop}

/-- `P` holds of the shared state and `Q` of all that the threads still have to do. -/
def Keeps (P : S → Prop) (Q : A → Prop) (σ : System ι S A T) : Prop :=
  P σ.shared ∧ ∀ i, ∀ a ∈ (σ.thread i).actions, Q a

theorem Keeps.step (hact : ∀ s a, P s → Q a → P (act s a))
    (hstart : ∀ s t s' actions, P s → start s t = .ok (s', actions) →
      P s' ∧ ∀ a ∈ actions, Q a)
    (hk : σ.Keeps P Q) (i : ι) : (σ.step act start i).Keeps P Q := by
  obtain ⟨hp, hq⟩ := hk
  have hupdate : ∀ t : Thread A T, (∀ a ∈ t.actions, Q a) →
      ∀ j, ∀ a ∈ (Function.update σ.thread i t j).actions, Q a := by
    intro t ht j
    by_cases hj : j = i
    · subst hj
      simpa using ht
    · simpa [hj] using hq j
  have hi := hq i
  cases h : σ.thread i with
  | mk actions pending =>
    rw [h] at hi
    cases actions with
    | cons a actions =>
      rw [step_of_action h]
      refine ⟨hact _ _ hp (hi a List.mem_cons_self), hupdate _ ?_⟩
      exact fun b hb => hi b (List.mem_cons_of_mem _ hb)
    | nil =>
      cases pending with
      | nil =>
        rw [step_of_idle h]
        exact ⟨hp, hq⟩
      | cons t pending =>
        cases hs : start σ.shared t with
        | error e =>
          rw [step_of_error h hs]
          refine ⟨hp, hupdate _ ?_⟩
          intro a ha
          cases ha
        | ok p =>
          obtain ⟨hp', hq'⟩ := hstart _ _ p.1 p.2 hp hs
          rw [step_of_start h hs]
          exact ⟨hp', hupdate _ hq'⟩

/-- What every start and every action keeps holds under every schedule. -/
theorem Keeps.run (hact : ∀ s a, P s → Q a → P (act s a))
    (hstart : ∀ s t s' actions, P s → start s t = .ok (s', actions) →
      P s' ∧ ∀ a ∈ actions, Q a)
    (hk : σ.Keeps P Q) (schedule : List ι) : (σ.run act start schedule).Keeps P Q := by
  induction schedule generalizing σ with
  | nil => exact hk
  | cons i schedule ih => exact ih (hk.step hact hstart i)

end Invariant

section Apart
variable {P : S → Thread A T → Prop} {Q : A → Prop} {R : T → Prop}

/-- A thread keeps what is known of the state and of what it has still to do, and so do the
others, whose actions and tasks are about something else. -/
structure Apart (act : S → A → S) (start : S → T → Except ε (S × List A))
    (P : S → Thread A T → Prop) (Q : A → Prop) (R : T → Prop) : Prop where
  own_act : ∀ {s a actions pending}, P s ⟨a :: actions, pending⟩ → P (act s a) ⟨actions, pending⟩
  own_start : ∀ {s t pending s' actions}, P s ⟨[], t :: pending⟩ →
    start s t = .ok (s', actions) → P s' ⟨actions, pending⟩
  own_error : ∀ {s t pending e}, P s ⟨[], t :: pending⟩ → start s t = .error e → P s ⟨[], pending⟩
  other_act : ∀ {s a thread}, P s thread → Q a → P (act s a) thread
  other_start : ∀ {s t s' actions thread}, P s thread → R t → start s t = .ok (s', actions) →
    P s' thread ∧ ∀ a ∈ actions, Q a

/-- All that the thread still has to do is about something else. -/
def Elsewhere (Q : A → Prop) (R : T → Prop) (thread : Thread A T) : Prop :=
  (∀ a ∈ thread.actions, Q a) ∧ ∀ t ∈ thread.pending, R t

theorem Apart.step (h : Apart act start P Q R) (hown : P σ.shared (σ.thread i))
    (hothers : ∀ j ≠ i, Elsewhere Q R (σ.thread j)) (k : ι) :
    P (σ.step act start k).shared ((σ.step act start k).thread i) ∧
      ∀ j ≠ i, Elsewhere Q R ((σ.step act start k).thread j) := by
  -- The step replaces the thread that takes it.
  have hafter : ∀ {s : S} {thread : Thread A T},
      (if i = k then P s thread else P s (σ.thread i)) →
      (k ≠ i → Elsewhere Q R thread) →
      P s (Function.update σ.thread k thread i) ∧
        ∀ j ≠ i, Elsewhere Q R (Function.update σ.thread k thread j) := by
    intro s thread hi hk
    constructor
    · rw [Function.update_apply]
      split_ifs at hi ⊢
      · exact hi
      · exact hi
    · intro j hj
      rw [Function.update_apply]
      split_ifs with hjk
      · exact hk (hjk ▸ hj)
      · exact hothers j hj
  cases hthread : σ.thread k with
  | mk actions pending =>
    cases actions with
    | cons a actions =>
      rw [step_of_action hthread]
      refine hafter ?_ ?_
      · split_ifs with hik
        · subst hik
          exact h.own_act (hthread ▸ hown)
        · have hother := hothers k (Ne.symm hik)
          rw [hthread] at hother
          exact h.other_act hown (hother.1 a List.mem_cons_self)
      · intro hki
        have hother := hothers k hki
        rw [hthread] at hother
        exact ⟨fun b hb => hother.1 b (List.mem_cons_of_mem _ hb), hother.2⟩
    | nil =>
      cases pending with
      | nil =>
        rw [step_of_idle hthread]
        exact ⟨hown, hothers⟩
      | cons t pending =>
        cases hs : start σ.shared t with
        | error e =>
          rw [step_of_error hthread hs]
          refine hafter ?_ ?_
          · split_ifs with hik
            · subst hik
              exact h.own_error (hthread ▸ hown) hs
            · exact hown
          · intro hki
            have hother := hothers k hki
            rw [hthread] at hother
            exact ⟨hother.1, fun t' ht' => hother.2 t' (List.mem_cons_of_mem _ ht')⟩
        | ok p =>
          rw [step_of_start hthread hs]
          refine hafter ?_ ?_
          · split_ifs with hik
            · subst hik
              exact h.own_start (hthread ▸ hown) hs
            · have hother := hothers k (Ne.symm hik)
              rw [hthread] at hother
              exact (h.other_start hown (hother.2 t List.mem_cons_self) hs).1
          · intro hki
            have hother := hothers k hki
            rw [hthread] at hother
            obtain ⟨-, hactions⟩ := h.other_start hown (hother.2 t List.mem_cons_self) hs
            exact ⟨hactions, fun t' ht' => hother.2 t' (List.mem_cons_of_mem _ ht')⟩

/-- What a thread keeps, and the others too, holds under every schedule. -/
theorem Apart.run (h : Apart act start P Q R) (hown : P σ.shared (σ.thread i))
    (hothers : ∀ j ≠ i, Elsewhere Q R (σ.thread j)) (schedule : List ι) :
    P (σ.run act start schedule).shared ((σ.run act start schedule).thread i) := by
  induction schedule generalizing σ with
  | nil => exact hown
  | cons k schedule ih =>
    obtain ⟨hown', hothers'⟩ := h.step hown hothers k
    exact ih hown' hothers'

theorem run_replicate {done rest : List A} {pending : List T}
    (h : σ.thread i = ⟨done ++ rest, pending⟩) :
    (σ.run act start (List.replicate done.length i)).shared = done.foldl act σ.shared := by
  induction done generalizing σ with
  | nil => rfl
  | cons a done ih =>
    rw [List.length_cons, List.replicate_succ]
    change ((σ.step act start i).run act start (List.replicate done.length i)).shared = _
    rw [step_of_action h, ih (Function.update_self _ _ _)]
    rfl

end Apart

end System
end Interleaving

import Mathlib.Data.List.Induction
import Mathlib.Data.List.Infix

/-! Runs of a step function over a list of labels: what every step, and every state
reached, has in common. -/
namespace Run

variable {σ ℓ : Type*} (step : σ → ℓ → σ)

/-- Every step of the run is taken in a state where `G` holds of it. -/
def Along (G : σ → ℓ → Prop) (s : σ) : List ℓ → Prop
  | [] => True
  | l :: ls => G s l ∧ Along G (step s l) ls

/-- Every state of the run, the first and the last included, meets `P`. -/
def Always (P : σ → Prop) (s : σ) (ls : List ℓ) : Prop :=
  ∀ pre, pre <+: ls → P (pre.foldl step s)

variable {step} {G W : σ → ℓ → Prop} {J P : σ → Prop}

/-- A condition on the label alone is met along a run when every label meets it. -/
theorem along_label {Q : ℓ → Prop} {s : σ} {ls : List ℓ} :
    Along step (fun _ l => Q l) s ls ↔ ∀ l ∈ ls, Q l := by
  induction ls generalizing s with
  | nil => simp [Along]
  | cons l ls ih => simp [Along, ih]

theorem along_congr (h : ∀ s l, G s l ↔ W s l) {s : σ} {ls : List ℓ} :
    Along step G s ls ↔ Along step W s ls := by
  induction ls generalizing s with
  | nil => rfl
  | cons l ls ih => exact and_congr (h s l) ih

theorem along_and {s : σ} {ls : List ℓ} (hG : Along step G s ls) (hW : Along step W s ls) :
    Along step (fun s l => G s l ∧ W s l) s ls := by
  induction ls generalizing s with
  | nil => trivial
  | cons l ls ih => exact ⟨⟨hG.1, hW.1⟩, ih hG.2 hW.2⟩

theorem along_append {s : σ} {ls ms : List ℓ} :
    Along step G s (ls ++ ms) ↔ Along step G s ls ∧ Along step G (ls.foldl step s) ms := by
  induction ls generalizing s with
  | nil => simp [Along]
  | cons l ls ih => simp [Along, ih, and_assoc]

/-- An invariant that the steps meeting `W` keep, and what follows from it, in the runs all of
whose steps meet `W`. -/
theorem along_of_along (hJ : ∀ s l, J s → W s l → J (step s l))
    (hG : ∀ s l, J s → W s l → G s l) {s : σ} (hs : J s) {ls : List ℓ}
    (hw : Along step W s ls) : Along step G s ls := by
  induction ls generalizing s with
  | nil => trivial
  | cons l ls ih => exact ⟨hG s l hs hw.1, ih (hJ s l hs hw.1) hw.2⟩

theorem always_of_along (hJ : ∀ s l, J s → W s l → J (step s l)) (hP : ∀ s, J s → P s)
    {s : σ} (hs : J s) {ls : List ℓ} (hw : Along step W s ls) : Always step P s ls := by
  induction ls generalizing s with
  | nil =>
    intro pre hpre
    rw [List.prefix_nil.mp hpre]
    exact hP s hs
  | cons l ls ih =>
    intro pre hpre
    cases pre with
    | nil => exact hP s hs
    | cons l' pre =>
      obtain ⟨rfl, hpre'⟩ := List.cons_prefix_cons.mp hpre
      exact ih (hJ s l' hs hw.1) hw.2 pre hpre'

/-- What follows from an invariant is met by every step of every run. -/
theorem along_of_invariant (hJ : ∀ s l, J s → J (step s l)) (hG : ∀ s l, J s → G s l)
    {s : σ} (hs : J s) (ls : List ℓ) : Along step G s ls := by
  induction ls generalizing s with
  | nil => trivial
  | cons l ls ih => exact ⟨hG s l hs, ih (hJ s l hs)⟩

/-- What follows from an invariant holds in every state of every run. -/
theorem always_of_invariant (hJ : ∀ s l, J s → J (step s l)) (hP : ∀ s, J s → P s)
    {s : σ} (hs : J s) (ls : List ℓ) : Always step P s ls := by
  intro pre _
  induction pre generalizing s ls with
  | nil => exact hP s hs
  | cons l pre ih => exact ih (hJ s l hs) pre (List.prefix_refl pre)

/-- Where one step keeps `P` exactly when it meets `G`, a run keeps `P` in every state
exactly when all its steps meet `G`: the first step that fails is seen at once. -/
theorem always_iff_along
    (hJ : ∀ s l, J s → W s l → J (step s l))
    (hP : ∀ s l, J s → P s → W s l → (P (step s l) ↔ G s l))
    {s : σ} {ls : List ℓ} (hs : J s) (hp : P s) (hw : Along step W s ls) :
    Always step P s ls ↔ Along step G s ls := by
  induction ls generalizing s with
  | nil => simpa [Always, Along] using hp
  | cons l ls ih =>
    constructor
    · intro h
      have h1 : P (step s l) := h [l] (by simp)
      refine ⟨(hP s l hs hp hw.1).mp h1, (ih (hJ s l hs hw.1) h1 hw.2).mp ?_⟩
      intro pre hpre
      exact h (l :: pre) (by simpa using hpre)
    · rintro ⟨hg, hrest⟩ pre hpre
      have h1 := (hP s l hs hp hw.1).mpr hg
      cases pre with
      | nil => exact hp
      | cons l' pre =>
        obtain ⟨rfl, hpre'⟩ := List.cons_prefix_cons.mp hpre
        exact (ih (hJ s l' hs hw.1) h1 hw.2).mpr hrest pre hpre'

section Expansion
variable {τ μ : Type*} (upper : τ → μ → τ) (expand : τ → μ → List ℓ)

/-- The steps of a lower level that a run takes, each of its steps being a few of those. -/
def expansion (t : τ) : List μ → List ℓ
  | [] => []
  | l :: ls => expand t l ++ expansion (upper t l) ls

theorem mem_expansion_iff {a : ℓ} {t : τ} {ls : List μ} :
    a ∈ expansion upper expand t ls ↔
      ∃ pre l post, ls = pre ++ l :: post ∧ a ∈ expand (pre.foldl upper t) l := by
  induction ls generalizing t with
  | nil => simp [expansion]
  | cons l ls ih =>
    rw [expansion, List.mem_append, ih]
    constructor
    · rintro (hfirst | ⟨pre, l', post, rfl, hmem⟩)
      · exact ⟨[], l, ls, rfl, hfirst⟩
      · exact ⟨l :: pre, l', post, rfl, hmem⟩
    · rintro ⟨pre, l', post, heq, hmem⟩
      cases pre with
      | nil =>
        obtain ⟨rfl, -⟩ := List.cons.inj heq
        exact Or.inl hmem
      | cons l₀ pre =>
        obtain ⟨rfl, hrest⟩ := List.cons.inj heq
        exact Or.inr ⟨pre, l', post, hrest, hmem⟩

variable {upper expand} {view : τ → σ}
  (hview : ∀ t l, view (upper t l) = (expand t l).foldl step (view t))
include hview

theorem foldl_expansion (t : τ) (ls : List μ) :
    view (ls.foldl upper t) = (expansion upper expand t ls).foldl step (view t) := by
  induction ls generalizing t with
  | nil => rfl
  | cons l ls ih => rw [List.foldl_cons, ih, expansion, List.foldl_append, hview]

theorem along_expansion {I : τ → Prop} {V : τ → μ → Prop}
    (hI : ∀ t l, I t → V t l → I (upper t l))
    (hG : ∀ t l, I t → V t l → Along step G (view t) (expand t l)) {t : τ} (ht : I t)
    {ls : List μ} (hv : Along upper V t ls) :
    Along step G (view t) (expansion upper expand t ls) := by
  induction ls generalizing t with
  | nil => trivial
  | cons l ls ih =>
    rw [expansion, along_append]
    refine ⟨hG t l ht hv.1, ?_⟩
    rw [← hview]
    exact ih (hI t l ht hv.1) hv.2

end Expansion

end Run

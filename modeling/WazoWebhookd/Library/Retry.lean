import Mathlib.Data.List.Chain

/-! Asking again for as long as the answers tell to, with a limit on the number of times. -/
namespace Retry
variable {α : Type*} (again : α → Bool)

/-- The answers that come, of those that are there for each time. -/
def seen : ℕ → (ℕ → α) → List α
  | 0, _ => []
  | limit + 1, answers =>
    answers 0 :: if again (answers 0) then seen limit fun i => answers (i + 1) else []

/-- An answer with that property comes within the limit, after ones that tell to ask again. -/
def Reaches (p : α → Prop) (limit : ℕ) (answers : ℕ → α) : Prop :=
  ∃ i < limit, (∀ j < i, again (answers j)) ∧ p (answers i)

variable {again} {limit : ℕ} {answers : ℕ → α}

theorem seen_succ (h : again (answers 0)) :
    seen again (limit + 1) answers =
      answers 0 :: seen again limit fun i => answers (i + 1) := by
  simp [seen, h]

theorem seen_of_not (h : ¬ again (answers 0)) :
    seen again (limit + 1) answers = [answers 0] := by
  simp [seen, h]

theorem head?_seen (hlimit : 0 < limit) : (seen again limit answers).head? = some (answers 0) := by
  obtain ⟨limit, rfl⟩ := Nat.exists_eq_succ_of_ne_zero (Nat.pos_iff_ne_zero.mp hlimit)
  rfl

/-- What holds of every answer that is followed by another. -/
theorem isChain_seen_iff {p : α → Prop} (limit : ℕ) (answers : ℕ → α) :
    (seen again limit answers).IsChain (fun a _ => p a) ↔
      ∀ i, i + 1 < limit → (∀ j ≤ i, again (answers j)) → p (answers i) := by
  induction limit generalizing answers with
  | zero => simp [seen]
  | succ limit ih =>
    by_cases h : again (answers 0)
    · rw [seen_succ h, List.isChain_cons, ih]
      constructor
      · rintro ⟨hfirst, hrest⟩ i hi hall
        cases i with
        | zero =>
          have hlimit : 0 < limit := by omega
          have hhead : (seen again limit fun i => answers (i + 1)).head? = some (answers 1) :=
            head?_seen hlimit
          exact hfirst _ hhead
        | succ i =>
          refine hrest i (by omega) fun j hj => ?_
          exact hall (j + 1) (by omega)
      · intro hall
        constructor
        · intro b hb
          have hlimit : 0 < limit := by
            by_contra hzero
            obtain rfl : limit = 0 := by omega
            simp [seen] at hb
          refine hall 0 (by omega) fun j hj => ?_
          obtain rfl : j = 0 := by omega
          exact h
        · intro i hi hrest
          refine hall (i + 1) (by omega) fun j hj => ?_
          cases j with
          | zero => exact h
          | succ j => exact hrest j (by omega)
    · rw [seen_of_not h]
      have hnot : ∀ i, ¬ ∀ j ≤ i, again (answers j) := fun i hall => h (hall 0 (Nat.zero_le i))
      simp [hnot]

section Parts
variable {β : Type*} {f : α → List β} {p : β → Prop}

theorem head?_flatMap_seen (hf : ∀ a, again a → f a ≠ []) (hlimit : 0 < limit) {b : β} :
    b ∈ ((seen again limit answers).flatMap f).head? ↔ b ∈ (f (answers 0)).head? := by
  obtain ⟨limit, rfl⟩ := Nat.exists_eq_succ_of_ne_zero (Nat.pos_iff_ne_zero.mp hlimit)
  by_cases h : again (answers 0)
  · rw [seen_succ h, List.flatMap_cons, List.head?_append_of_ne_nil _ (hf _ h)]
  · rw [seen_of_not h, List.flatMap_singleton]

/-- What holds of every part of the answers that is followed by another, where an answer that tells
to ask again has a part. -/
theorem isChain_flatMap_seen_iff (hf : ∀ a, again a → f a ≠ []) :
    ((seen again limit answers).flatMap f).IsChain (fun b _ => p b) ↔
      ∀ i < limit, (∀ j < i, again (answers j)) → (f (answers i)).IsChain (fun b _ => p b) ∧
        (i + 1 < limit → again (answers i) → f (answers (i + 1)) ≠ [] →
          ∀ b ∈ (f (answers i)).getLast?, p b) := by
  induction limit generalizing answers with
  | zero => simp [seen]
  | succ limit ih =>
    by_cases h : again (answers 0)
    · rw [seen_succ h, List.flatMap_cons, List.isChain_append, ih]
      constructor
      · rintro ⟨hfirst, hrest, hnext⟩ i hi hall
        cases i with
        | zero =>
          refine ⟨hfirst, fun hlimit _ hne b hb => ?_⟩
          exact hnext b hb _ ((head?_flatMap_seen hf (by omega)).mpr (List.head?_eq_some_head hne))
        | succ i =>
          obtain ⟨hchain, hlast⟩ := hrest i (by omega) fun j hj => hall (j + 1) (by omega)
          exact ⟨hchain, fun hlimit => hlast (by omega)⟩
      · intro hall
        obtain ⟨hfirst, hnext⟩ := hall 0 (by omega) nofun
        refine ⟨hfirst, fun i hi hbefore => ?_, fun b hb b' hb' => ?_⟩
        · obtain ⟨hchain, hlast⟩ := hall (i + 1) (by omega) fun j hj => by
            cases j with
            | zero => exact h
            | succ j => exact hbefore j (by omega)
          exact ⟨hchain, fun hlimit => hlast (by omega)⟩
        · have hlimit : 0 < limit := by
            by_contra hzero
            obtain rfl : limit = 0 := by omega
            simp [seen] at hb'
          refine hnext (by omega) h ?_ b hb
          intro hnil
          rw [head?_flatMap_seen hf hlimit, hnil] at hb'
          cases hb'
    · rw [seen_of_not h, List.flatMap_singleton]
      constructor
      · intro hchain i hi hall
        cases i with
        | zero => exact ⟨hchain, fun _ hagain => absurd hagain h⟩
        | succ i => exact absurd (hall 0 (Nat.succ_pos i)) h
      · intro hall
        exact (hall 0 (by omega) nofun).1

/-- A chain of which only the first of two is asked something. -/
theorem isChain_fst_iff {l : List β} : l.IsChain (fun b _ => p b) ↔ ∀ b ∈ l.dropLast, p b := by
  induction l with
  | nil => simp
  | cons a l ih =>
    cases l with
    | nil => simp
    | cons a' l =>
      rw [List.isChain_cons_cons, ih, List.dropLast_cons_cons, List.forall_mem_cons]

end Parts

theorem reaches_succ_iff {p : α → Prop} :
    Reaches again p (limit + 1) answers ↔
      p (answers 0) ∨ again (answers 0) ∧ Reaches again p limit fun i => answers (i + 1) := by
  constructor
  · rintro ⟨i, hi, hall, hp⟩
    cases i with
    | zero => exact .inl hp
    | succ i =>
      refine .inr ⟨hall 0 (by omega), i, by omega, fun j hj => ?_, hp⟩
      exact hall (j + 1) (by omega)
  · rintro (hp | ⟨h, i, hi, hall, hp⟩)
    · exact ⟨0, by omega, fun j hj => absurd hj (Nat.not_lt_zero j), hp⟩
    · refine ⟨i + 1, by omega, fun j hj => ?_, hp⟩
      cases j with
      | zero => exact h
      | succ j => exact hall j (by omega)

theorem not_reaches_zero {p : α → Prop} : ¬ Reaches again p 0 answers := by
  rintro ⟨i, hi, -⟩
  omega

theorem eq_of_getElem?_seen {i : ℕ} {a : α} (h : (seen again limit answers)[i]? = some a) :
    answers i = a := by
  induction limit generalizing answers i with
  | zero => cases h
  | succ limit ih =>
    rw [seen] at h
    cases i with
    | zero => exact Option.some.inj h
    | succ i =>
      rw [List.getElem?_cons_succ] at h
      split_ifs at h
      · exact @ih (fun i => answers (i + 1)) i h
      · cases h

/-- The answers seen up to the first that does not tell to ask again, or to the limit. -/
theorem seen_eq_map_range {n : ℕ} (hn : n < limit) (hbefore : ∀ i < n, again (answers i))
    (hstop : n + 1 < limit → ¬ again (answers n)) :
    seen again limit answers = (List.range (n + 1)).map answers := by
  induction n generalizing limit answers with
  | zero =>
    obtain ⟨limit, rfl⟩ := Nat.exists_eq_succ_of_ne_zero (Nat.ne_of_gt hn)
    cases limit with
    | zero => simp [seen]
    | succ limit => exact seen_of_not (hstop (by omega))
  | succ n ih =>
    obtain ⟨limit, rfl⟩ := Nat.exists_eq_succ_of_ne_zero (Nat.ne_zero_of_lt hn)
    have hrest : seen again limit (fun i => answers (i + 1)) =
        (List.range (n + 1)).map fun i => answers (i + 1) := by
      refine ih (by omega) ?_ ?_
      · intro i hi
        exact hbefore (i + 1) (by omega)
      · intro hlimit
        exact hstop (by omega)
    rw [seen_succ (hbefore 0 (Nat.succ_pos n)), hrest, List.range_succ_eq_map (n := n + 1),
      List.map_cons, List.map_map]
    rfl

end Retry

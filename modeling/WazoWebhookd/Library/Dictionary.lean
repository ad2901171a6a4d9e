import WazoWebhookd.Library.KeyedList
import Mathlib.Data.Finmap

/-! Finite maps used as dictionaries: selection of keys, cancellation, quantified entries. -/
namespace Finmap

section FilterKeys
variable {α : Type*} {β : α → Type*} (p : α → Prop) [DecidablePred p]

private theorem filter_nodupKeys (s : Finmap β) :
    (s.entries.filter fun e => p e.1).NodupKeys := by
  have h := Multiset.nodup_keys.mpr s.nodupKeys
  rw [← Multiset.nodup_keys]
  unfold Multiset.keys at h ⊢
  refine Multiset.Nodup.map_on (fun x hx y hy hxy => ?_) (s.nodup_entries.filter _)
  exact Multiset.inj_on_of_nodup_map h x (Multiset.mem_of_mem_filter hx)
    y (Multiset.mem_of_mem_filter hy) hxy

def filterKeys (s : Finmap β) : Finmap β :=
  ⟨s.entries.filter fun e => p e.1, filter_nodupKeys p s⟩

@[simp] theorem lookup_filterKeys [DecidableEq α] (s : Finmap β) (a : α) :
    (s.filterKeys p).lookup a = if p a then s.lookup a else none := by
  apply Option.ext
  intro b
  rw [lookup_eq_some_iff]
  by_cases h : p a <;> simp [filterKeys, h, ← lookup_eq_some_iff]

end FilterKeys

section Insert
variable {α : Type*} {β : α → Type*} [DecidableEq α]

theorem lookup_insert_ite {γ : Type*} (a a' : α) (b : γ) (s : Finmap fun _ : α => γ) :
    (s.insert a b).lookup a' = if a' = a then some b else s.lookup a' := by
  by_cases h : a' = a
  · subst h
    rw [lookup_insert, if_pos rfl]
  · rw [lookup_insert_of_ne s h, if_neg h]

theorem lookup_singleton_ite {γ : Type*} (a a' : α) (b : γ) :
    (singleton a b : Finmap fun _ : α => γ).lookup a' = if a' = a then some b else none := by
  by_cases h : a' = a
  · subst h
    rw [lookup_singleton_eq, if_pos rfl]
  · rw [if_neg h, lookup_eq_none, mem_singleton]
    exact h

theorem insert_right_cancel {a : α} {b : β a} {s t : Finmap β} (hs : a ∉ s) (ht : a ∉ t)
    (h : s.insert a b = t.insert a b) : s = t := by
  apply ext_lookup
  intro x
  by_cases hx : x = a
  · subst hx
    rw [lookup_eq_none.mpr hs, lookup_eq_none.mpr ht]
  · rw [← lookup_insert_of_ne s hx, h, lookup_insert_of_ne t hx]

theorem lookup_foldl_insert {γ : Type*} {pairs : List (α × γ)} (hn : (pairs.map (·.1)).Nodup)
    (a : α) : (pairs.foldl (fun d p => d.insert p.1 p.2)
      (∅ : Finmap fun _ : α => γ)).lookup a = pairs.lookup a := by
  have hfold : ∀ d : Finmap fun _ : α => γ,
      (pairs.foldl (fun d p => d.insert p.1 p.2) d).lookup a =
        (pairs.lookup a).or (d.lookup a) := by
    induction pairs with
    | nil => simp
    | cons p pairs ih =>
      intro d
      obtain ⟨hnot, hn'⟩ := List.nodup_cons.mp hn
      rw [List.foldl_cons, ih hn', List.lookup_cons]
      by_cases ha : a = p.1
      · have habsent : pairs.lookup a = none :=
          KeyedList.lookup_eq_none_iff_notMem.mpr (ha ▸ hnot)
        rw [habsent, ha, lookup_insert, beq_self_eq_true]
        rfl
      · rw [lookup_insert_of_ne _ ha, beq_false_of_ne ha]
  exact (hfold ∅).trans (by simp)

end Insert

section Quantifiers
variable {α β : Type*} (f : α → β → Bool)

private theorem list_foldl_and (l : List (Sigma fun _ : α => β)) (b : Bool) :
    l.foldl (fun d s => d && f s.1 s.2) b = true ↔ b = true ∧ ∀ e ∈ l, f e.1 e.2 = true := by
  induction l generalizing b with
  | nil => simp
  | cons e l ih => simp [ih, and_assoc]

private theorem list_foldl_or (l : List (Sigma fun _ : α => β)) (b : Bool) :
    l.foldl (fun d s => d || f s.1 s.2) b = true ↔ b = true ∨ ∃ e ∈ l, f e.1 e.2 = true := by
  induction l generalizing b with
  | nil => simp
  | cons e l ih => simp [ih, or_assoc]

variable [DecidableEq α] (s : Finmap fun _ : α => β)

theorem all_eq_true : s.all f = true ↔ ∀ a b, s.lookup a = some b → f a b = true := by
  have h : s.all f = true ↔ ∀ e ∈ s.entries, f e.1 e.2 = true := by
    refine induction_on s fun l => ?_
    exact (list_foldl_and f l.entries true).trans (by simp)
  rw [h]
  constructor
  · intro h a b hab
    exact h ⟨a, b⟩ (lookup_eq_some_iff.mp hab)
  · rintro h ⟨a, b⟩ he
    exact h a b (lookup_eq_some_iff.mpr he)

theorem any_eq_true : s.any f = true ↔ ∃ a b, s.lookup a = some b ∧ f a b = true := by
  have h : s.any f = true ↔ ∃ e ∈ s.entries, f e.1 e.2 = true := by
    refine induction_on s fun l => ?_
    exact (list_foldl_or f l.entries false).trans (by simp)
  rw [h]
  constructor
  · rintro ⟨⟨a, b⟩, he, hp⟩
    exact ⟨a, b, lookup_eq_some_iff.mpr he, hp⟩
  · rintro ⟨a, b, hab, hp⟩
    exact ⟨⟨a, b⟩, lookup_eq_some_iff.mp hab, hp⟩

end Quantifiers

end Finmap

import Mathlib.Data.List.Perm.Basic
import Mathlib.Data.List.Count
import Mathlib.Data.List.Induction
import Mathlib.Data.List.Nodup

/-! Lists of records read through a key: the records of one key, what appending or removing a
record does to them, and associations of distinct keys. -/
namespace KeyedList

section
variable {α κ : Type*} [DecidableEq κ] (key : α → κ)

def ofKey (k : κ) (l : List α) : List α := l.filter fun a => key a = k

theorem ofKey_append (k : κ) (l m : List α) :
    ofKey key k (l ++ m) = ofKey key k l ++ ofKey key k m := by
  simp [ofKey]

theorem ofKey_singleton_of_ne {k : κ} {a : α} (h : key a ≠ k) : ofKey key k [a] = [] := by
  simp [ofKey, h]

/-- Removing a record of another key leaves the records of this key alone. -/
theorem ofKey_eraseP_of_ne {p : α → Bool} {k : κ} (h : ∀ a, p a = true → key a ≠ k)
    (l : List α) : ofKey key k (l.eraseP p) = ofKey key k l := by
  induction l with
  | nil => rfl
  | cons a l ih =>
    by_cases hp : p a = true
    · rw [List.eraseP_cons_of_pos hp]
      simp [ofKey, h a hp]
    · rw [List.eraseP_cons_of_neg hp]
      simp only [ofKey, List.filter_cons] at ih ⊢
      rw [ih]

theorem ofKey_eraseP_of_eq {p : α → Bool} {k : κ} (h : ∀ a, p a = true → key a = k)
    (l : List α) : ofKey key k (l.eraseP p) = (ofKey key k l).eraseP p := by
  induction l with
  | nil => rfl
  | cons a l ih =>
    by_cases hp : p a = true
    · rw [List.eraseP_cons_of_pos hp]
      simp [ofKey, h a hp, hp]
    · rw [List.eraseP_cons_of_neg hp]
      simp only [ofKey, List.filter_cons] at ih ⊢
      by_cases hk : key a = k
      · simp [hk, hp, ih]
      · simp [hk, ih]

/-- Two lists with the same records of every key, up to order, are the same up to order. -/
theorem perm_of_ofKey {l m : List α} (h : ∀ k, (ofKey key k l).Perm (ofKey key k m)) :
    l.Perm m := by
  classical
  refine List.perm_iff_count.mpr fun a => ?_
  have hc : ∀ n : List α, (ofKey key (key a) n).count a = n.count a := fun n =>
    List.count_filter (by simp)
  rw [← hc l, ← hc m]
  exact (h (key a)).count_eq a

theorem ofKey_perm {l m : List α} (h : l.Perm m) (k : κ) :
    (ofKey key k l).Perm (ofKey key k m) := h.filter _

section Filter
variable {p : α → Bool} {k : κ} {l : List α}

/-- Replacing the records of a key by one that `p` drops as well does not show through `p`. -/
theorem filter_replace {b : α} (hb : p b = false) (h : ∀ a ∈ l, key a = k → p a = false) :
    (l.map fun a => if key a = k then b else a).filter p = l.filter p := by
  induction l with
  | nil => rfl
  | cons a l ih =>
    have hl := ih fun x hx => h x (List.mem_cons_of_mem a hx)
    rw [List.map_cons, List.filter_cons, List.filter_cons, hl]
    by_cases ha : key a = k
    · simp [ha, hb, h a List.mem_cons_self ha]
    · simp [ha]

theorem filter_remove (h : ∀ a ∈ l, key a = k → p a = false) :
    (l.filter fun a => key a ≠ k).filter p = l.filter p := by
  rw [List.filter_filter]
  refine List.filter_congr fun a ha => ?_
  by_cases hk : key a = k
  · simp [hk, h a ha hk]
  · simp [hk]

end Filter

end

/-- `d[key] = value`, with the keys in the order of their insertion. -/
def setItem {κ α : Type*} [DecidableEq κ] (key : κ) (value : α) : List (κ × α) → List (κ × α)
  | [] => [(key, value)]
  | p :: d => if p.1 = key then (key, value) :: d else p :: setItem key value d

def update {κ α : Type*} [DecidableEq κ] (d more : List (κ × α)) : List (κ × α) :=
  more.foldl (fun d p => setItem p.1 p.2 d) d

theorem foldl_filter {α β : Type*} (p : β → α → Prop) [∀ b, DecidablePred (p b)]
    (items : List β) (l : List α) : items.foldl (fun l b => l.filter fun a => p b a) l =
      l.filter fun a => ∀ b ∈ items, p b a := by
  induction items generalizing l with
  | nil => simp
  | cons b items ih =>
    rw [List.foldl_cons, ih, List.filter_filter]
    refine List.filter_congr fun a _ => ?_
    rw [← Bool.decide_and, decide_eq_decide, List.forall_mem_cons]
    exact and_comm

theorem ofKey_map {α β κ : Type*} [DecidableEq κ] (key : β → κ) (f : α → β) (k : κ)
    (l : List α) : ofKey key k (l.map f) = (ofKey (fun a => key (f a)) k l).map f := by
  simp only [ofKey, List.filter_map]
  rfl

section Lookup
variable {κ α β : Type*} [BEq κ] {l m : List (κ × α)} {k : κ} {a : α}

theorem lookup_map (f : α → β) (l : List (κ × α)) (k : κ) :
    (l.map fun p => (p.1, f p.2)).lookup k = (l.lookup k).map f := by
  induction l with
  | nil => rfl
  | cons p l ih =>
    rw [List.map_cons, List.lookup_cons, List.lookup_cons, ih]
    cases k == p.1 <;> rfl

variable [LawfulBEq κ]

theorem mem_of_lookup (h : l.lookup k = some a) : (k, a) ∈ l := by
  obtain ⟨before, after, rfl, -⟩ := List.lookup_eq_some_iff.mp h
  exact List.mem_append_right _ List.mem_cons_self

theorem lookup_eq_none_iff_notMem : l.lookup k = none ↔ k ∉ l.map (·.1) := by
  rw [List.lookup_eq_none_iff, List.mem_map]
  constructor
  · rintro h ⟨p, hp, rfl⟩
    simpa using h p hp
  · intro h p hp
    rw [bne_iff_ne]
    rintro rfl
    exact h ⟨p, hp, rfl⟩

theorem lookup_eq_some_iff_mem (hl : (l.map (·.1)).Nodup) :
    l.lookup k = some a ↔ (k, a) ∈ l := by
  refine ⟨mem_of_lookup, fun hmem => ?_⟩
  cases hlookup : l.lookup k with
  | none =>
    have habsent := lookup_eq_none_iff_notMem.mp hlookup
    exact absurd (List.mem_map_of_mem hmem) habsent
  | some b =>
    have heq := List.inj_on_of_nodup_map hl (mem_of_lookup hlookup) hmem rfl
    exact congrArg some (Prod.mk.inj heq).2

/-- Two associations of distinct keys that agree at every key differ in their order alone. -/
theorem perm_of_lookup (hl : (l.map (·.1)).Nodup) (hm : (m.map (·.1)).Nodup)
    (h : ∀ k, l.lookup k = m.lookup k) : l.Perm m := by
  refine (List.perm_ext_iff_of_nodup hl.of_map hm.of_map).mpr fun p => ?_
  rw [← lookup_eq_some_iff_mem hl, ← lookup_eq_some_iff_mem hm, h]

theorem lookup_cons [DecidableEq κ] (p : κ × α) (d : List (κ × α)) (k : κ) :
    (p :: d).lookup k = if k = p.1 then some p.2 else d.lookup k := by
  rw [List.lookup_cons]
  by_cases hk : k = p.1
  · rw [if_pos hk, beq_iff_eq.mpr hk]
  · rw [if_neg hk, beq_eq_false_iff_ne.mpr hk]

theorem lookup_reverse (hl : (l.map (·.1)).Nodup) (k : κ) :
    l.reverse.lookup k = l.lookup k := by
  have hrev : (l.reverse.map (·.1)).Nodup := by
    rw [List.map_reverse]
    exact List.nodup_reverse.mpr hl
  ext a
  rw [lookup_eq_some_iff_mem hl, lookup_eq_some_iff_mem hrev, List.mem_reverse]

end Lookup

/-- The dictionary of a list of pairs: each key where it comes first, with its last value. -/
def ofPairs {κ α : Type*} [DecidableEq κ] (l : List (κ × α)) : List (κ × α) :=
  l.foldl (fun d p => setItem p.1 p.2 d) []

section SetItem
variable {κ κ' α β : Type*} [DecidableEq κ] [DecidableEq κ']

theorem lookup_setItem [BEq κ] [LawfulBEq κ] (key : κ) (value : α) (d : List (κ × α)) (k : κ) :
    (setItem key value d).lookup k = if k = key then some value else d.lookup k := by
  induction d with
  | nil => exact lookup_cons (key, value) [] k
  | cons p d ih =>
    rw [setItem]
    by_cases hp : p.1 = key
    · rw [if_pos hp, lookup_cons, lookup_cons, hp]
      split_ifs <;> rfl
    · rw [if_neg hp, lookup_cons, lookup_cons, ih]
      by_cases hk : k = p.1
      · rw [if_pos hk, if_pos hk, if_neg (hk ▸ hp)]
      · rw [if_neg hk, if_neg hk]

theorem nodup_setItem {d : List (κ × α)} (h : (d.map (·.1)).Nodup) (key : κ) (value : α) :
    ((setItem key value d).map (·.1)).Nodup := by
  induction d with
  | nil => simp [setItem]
  | cons p d ih =>
    rw [List.map_cons, List.nodup_cons] at h
    rw [setItem]
    by_cases hp : p.1 = key
    · rw [if_pos hp, List.map_cons, List.nodup_cons]
      exact hp ▸ h
    · rw [if_neg hp, List.map_cons, List.nodup_cons]
      refine ⟨?_, ih h.2⟩
      rw [← lookup_eq_none_iff_notMem, lookup_setItem, if_neg hp]
      exact lookup_eq_none_iff_notMem.mpr h.1

theorem map_setItem {f : κ → κ'} (hf : f.Injective) (g : α → β) (key : κ) (value : α)
    (d : List (κ × α)) : (setItem key value d).map (fun p => (f p.1, g p.2)) =
      setItem (f key) (g value) (d.map fun p => (f p.1, g p.2)) := by
  induction d with
  | nil => rfl
  | cons p d ih =>
    rw [List.map_cons, setItem, setItem]
    by_cases hp : p.1 = key
    · rw [if_pos hp, if_pos (congrArg f hp), List.map_cons]
    · rw [if_neg hp, if_neg fun h => hp (hf h), List.map_cons, ih]

theorem mem_of_mem_setItem {key : κ} {value : α} {d : List (κ × α)} {p : κ × α}
    (h : p ∈ setItem key value d) : p = (key, value) ∨ p ∈ d := by
  induction d with
  | nil => exact .inl (List.mem_singleton.mp h)
  | cons q d ih =>
    rw [setItem] at h
    split_ifs at h
    · rcases List.mem_cons.mp h with rfl | hp
      · exact .inl rfl
      · exact .inr (List.mem_cons_of_mem _ hp)
    · rcases List.mem_cons.mp h with rfl | hp
      · exact .inr List.mem_cons_self
      · exact (ih hp).imp_right (List.mem_cons_of_mem _)

theorem setItem_of_notMem {key : κ} {d : List (κ × α)} (h : key ∉ d.map (·.1)) (value : α) :
    setItem key value d = d ++ [(key, value)] := by
  induction d with
  | nil => rfl
  | cons p d ih =>
    rw [List.map_cons, List.mem_cons, not_or] at h
    rw [setItem, if_neg (Ne.symm h.1), ih h.2, List.cons_append]

theorem ofPairs_concat (l : List (κ × α)) (p : κ × α) :
    ofPairs (l ++ [p]) = setItem p.1 p.2 (ofPairs l) := by
  simp [ofPairs]

theorem nodup_ofPairs (l : List (κ × α)) : ((ofPairs l).map (·.1)).Nodup := by
  induction l using List.reverseRecOn with
  | nil => exact List.nodup_nil
  | append_singleton l p ih =>
    rw [ofPairs_concat]
    exact nodup_setItem ih p.1 p.2

theorem ofPairs_of_nodup {l : List (κ × α)} (h : (l.map (·.1)).Nodup) : ofPairs l = l := by
  induction l using List.reverseRecOn with
  | nil => rfl
  | append_singleton l p ih =>
    rw [List.map_append, List.map_singleton, List.nodup_append] at h
    have hp : p.1 ∉ l.map (·.1) := fun hmem => h.2.2 _ hmem _ (List.mem_singleton_self _) rfl
    rw [ofPairs_concat, ih h.1, setItem_of_notMem hp]

theorem lookup_ofPairs [BEq κ] [LawfulBEq κ] (l : List (κ × α)) (k : κ) :
    (ofPairs l).lookup k = l.reverse.lookup k := by
  induction l using List.reverseRecOn with
  | nil => rfl
  | append_singleton l p ih =>
    rw [ofPairs_concat, lookup_setItem, ih, List.reverse_concat, lookup_cons]

theorem mem_of_mem_ofPairs {l : List (κ × α)} {p : κ × α} (h : p ∈ ofPairs l) : p ∈ l := by
  have hlookup := (lookup_eq_some_iff_mem (nodup_ofPairs l)).mpr h
  rw [lookup_ofPairs] at hlookup
  exact List.mem_reverse.mp (mem_of_lookup hlookup)

theorem map_ofPairs {f : κ → κ'} (hf : f.Injective) (g : α → β) (l : List (κ × α)) :
    (ofPairs l).map (fun p => (f p.1, g p.2)) = ofPairs (l.map fun p => (f p.1, g p.2)) := by
  induction l using List.reverseRecOn with
  | nil => rfl
  | append_singleton l p ih =>
    rw [ofPairs_concat, map_setItem hf, ih, List.map_append, List.map_singleton, ofPairs_concat]

end SetItem

end KeyedList

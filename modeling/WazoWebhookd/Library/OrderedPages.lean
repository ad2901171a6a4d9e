import Mathlib.Data.List.Sort
import Mathlib.Data.List.Nodup
import Mathlib.Data.List.Perm.Basic

/-! Pages of rows that are put in order again for each page, where the order may leave some rows
tied: when the pages together have each row once. -/
namespace OrderedPages
variable {α : Type*} (le : α → α → Prop)

/-- The rows in an order that agrees with `le`. -/
structure Arrangement (rows l : List α) : Prop where
  perm : l.Perm rows
  pairwise : l.Pairwise le

def page (size offset : ℕ) (l : List α) : List α := (l.drop offset).take size

def pages (size : ℕ) (answers : ℕ → List α) (n : ℕ) : List α :=
  (List.range n).flatMap fun i => page size (i * size) (answers i)

section Positions
variable [DecidableRel le]

/-- How many rows come before those that are tied with `a`. -/
def before (rows : List α) (a : α) : ℕ := rows.countP fun b => le b a ∧ ¬ le a b

/-- How many rows come before the ones that follow those tied with `a`. -/
def upTo (rows : List α) (a : α) : ℕ := rows.countP fun b => le b a

/-- Rows tied with `a` stand on both sides of a position. -/
def Straddles (rows : List α) (k : ℕ) (a : α) : Prop := before le rows a < k ∧ k < upTo le rows a

instance (rows : List α) (k : ℕ) (a : α) : Decidable (Straddles le rows k a) :=
  inferInstanceAs (Decidable (_ ∧ _))

end Positions

theorem getElem_iff_lt_countP {P : α → Bool} {l : List α}
    (hmono : l.Pairwise fun a b => P b → P a) {i : ℕ} (hi : i < l.length) :
    P l[i] ↔ i < l.countP P := by
  induction l generalizing i with
  | nil => simp at hi
  | cons a l ih =>
    obtain ⟨hhead, htail⟩ := List.pairwise_cons.mp hmono
    by_cases ha : P a
    · cases i with
      | zero => simp [ha]
      | succ i =>
        have hi' : i < l.length := by simpa using hi
        have hrest := ih htail hi'
        simpa [ha] using hrest
    · have hnone : ∀ b ∈ l, ¬ P b := fun b hb h => ha (hhead b hb h)
      have hcount : (a :: l).countP P = 0 := by
        rw [List.countP_eq_zero]
        intro b hb
        rcases List.mem_cons.mp hb with rfl | hb
        · exact ha
        · exact hnone b hb
      rw [hcount]
      have hmem : (a :: l)[i] ∈ a :: l := List.getElem_mem hi
      have hnot : ¬ P (a :: l)[i] := List.countP_eq_zero.mp hcount _ hmem
      simp [hnot]

section Order
variable {le} [DecidableRel le] {rows l l' : List α} {a : α} {k : ℕ}

theorem Arrangement.before_eq (h : Arrangement le rows l) (a : α) :
    l.countP (fun b => le b a ∧ ¬ le a b) = before le rows a := h.perm.countP_eq _

theorem Arrangement.upTo_eq (h : Arrangement le rows l) (a : α) :
    l.countP (fun b => le b a) = upTo le rows a := h.perm.countP_eq _

variable [IsTrans α le]

/-- The rows before those tied with `a` are in the places below their number. -/
theorem Arrangement.lt_before_iff (h : Arrangement le rows l) {i : ℕ} (hi : i < l.length) :
    le l[i] a ∧ ¬ le a l[i] ↔ i < before le rows a := by
  have hmono : l.Pairwise fun b c => decide (le c a ∧ ¬ le a c) → decide (le b a ∧ ¬ le a b) := by
    refine h.pairwise.imp fun {b c} hbc hc => ?_
    obtain ⟨hca, hac⟩ := of_decide_eq_true hc
    exact decide_eq_true ⟨Trans.trans hbc hca, fun hab => hac (Trans.trans hab hbc)⟩
  have hplace := getElem_iff_lt_countP hmono hi
  rw [h.before_eq] at hplace
  simpa using hplace

theorem Arrangement.lt_upTo_iff (h : Arrangement le rows l) {i : ℕ} (hi : i < l.length) :
    le l[i] a ↔ i < upTo le rows a := by
  have hmono : l.Pairwise fun b c => decide (le c a) → decide (le b a) := by
    refine h.pairwise.imp fun {b c} hbc hc => ?_
    exact decide_eq_true (Trans.trans hbc (of_decide_eq_true hc))
  have hplace := getElem_iff_lt_countP hmono hi
  rw [h.upTo_eq] at hplace
  simpa using hplace

variable [Std.Total le]

/-- Where no tied rows stand on both sides, the first rows are told by their counts. -/
theorem Arrangement.take_eq_filter (h : Arrangement le rows l)
    (hk : ∀ a ∈ rows, ¬ Straddles le rows k a) :
    l.take k = l.filter fun a => before le rows a < k := by
  have hplace : ∀ i (hi : i < l.length), before le rows l[i] < k ↔ i < k := by
    intro i hi
    have hrefl : le l[i] l[i] := (Std.Total.total (r := le) l[i] l[i]).elim id id
    have hbefore : ¬ i < before le rows l[i] := fun hlt => ((h.lt_before_iff hi).mpr hlt).2 hrefl
    have hupTo : i < upTo le rows l[i] := (h.lt_upTo_iff hi).mp hrefl
    have hmem : l[i] ∈ rows := h.perm.mem_iff.mp (List.getElem_mem hi)
    have hnot := hk _ hmem
    unfold Straddles at hnot
    omega
  have htake : ∀ a ∈ l.take k, before le rows a < k := by
    intro a ha
    obtain ⟨i, hi, rfl⟩ := List.getElem_of_mem ha
    rw [List.length_take] at hi
    rw [List.getElem_take]
    exact (hplace i (by omega)).mpr (by omega)
  have hdrop : ∀ a ∈ l.drop k, ¬ before le rows a < k := by
    intro a ha
    obtain ⟨i, hi, rfl⟩ := List.getElem_of_mem ha
    rw [List.length_drop] at hi
    rw [List.getElem_drop, hplace (k + i) (by omega)]
    omega
  conv_rhs => rw [← List.take_append_drop k l]
  rw [List.filter_append, List.filter_eq_self.mpr (by simpa using htake),
    List.filter_eq_nil_iff.mpr (by simpa using hdrop), List.append_nil]

theorem Arrangement.take_perm (h : Arrangement le rows l) (h' : Arrangement le rows l')
    (hk : ∀ a ∈ rows, ¬ Straddles le rows k a) : (l.take k).Perm (l'.take k) := by
  rw [h.take_eq_filter hk, h'.take_eq_filter hk]
  exact (h.perm.trans h'.perm.symm).filter _

variable {size : ℕ}

theorem take_append_page (size : ℕ) (l : List α) (i : ℕ) :
    l.take (i * size) ++ page size (i * size) l = l.take ((i + 1) * size) := by
  rw [page, Nat.succ_mul, List.take_add]

/-- A page between two such places has the same rows in every arrangement. -/
theorem Arrangement.page_perm (h : Arrangement le rows l) (h' : Arrangement le rows l')
    (hties : ∀ a ∈ rows, ∀ i, ¬ Straddles le rows (i * size) a) (i : ℕ) :
    (page size (i * size) l).Perm (page size (i * size) l') := by
  have hstart := h.take_perm h' fun a ha => hties a ha i
  have hend := h.take_perm h' fun a ha => hties a ha (i + 1)
  rw [← take_append_page, ← take_append_page] at hend
  exact (List.perm_append_left_iff _).mp (hend.trans (hstart.symm.append_right _))

theorem pages_of_one (size : ℕ) (l : List α) (n : ℕ) :
    pages size (fun _ => l) n = l.take (n * size) := by
  induction n with
  | zero => simp [pages]
  | succ n ih =>
    rw [← take_append_page, ← ih]
    simp [pages, List.range_succ]

theorem pages_perm (hties : ∀ a ∈ rows, ∀ i, ¬ Straddles le rows (i * size) a)
    {answers : ℕ → List α} (hanswers : ∀ i, Arrangement le rows (answers i)) {n : ℕ}
    (hn : rows.length ≤ n * size) : (pages size answers n).Perm rows := by
  have hone : (pages size answers n).Perm (pages size (fun _ => answers 0) n) :=
    List.Perm.flatMap_left _ fun i _ => (hanswers i).page_perm (hanswers 0) hties i
  rw [pages_of_one, List.take_of_length_le (by rw [(hanswers 0).perm.length_eq]; exact hn)] at hone
  exact hone.trans (hanswers 0).perm

omit [Std.Total le] [IsTrans α le] [DecidableRel le] in
/-- Neighbours that are tied may change their places. -/
theorem Arrangement.swap {xs zs : List α} {x y : α}
    (h : Arrangement le rows (xs ++ x :: y :: zs)) (hyx : le y x) :
    Arrangement le rows (xs ++ y :: x :: zs) := by
  have hswap : (xs ++ y :: x :: zs).Perm (xs ++ x :: y :: zs) :=
    (List.Perm.swap x y zs).append_left xs
  refine ⟨hswap.trans h.perm, ?_⟩
  obtain ⟨hxs, htail, hcross⟩ := List.pairwise_append.mp h.pairwise
  obtain ⟨hx, hyzs⟩ := List.pairwise_cons.mp htail
  obtain ⟨hy, hzs⟩ := List.pairwise_cons.mp hyzs
  refine List.pairwise_append.mpr ⟨hxs, ?_, fun b hb c hc => ?_⟩
  · have hx' : ∀ c ∈ zs, le x c := fun c hc => hx c (List.mem_cons_of_mem _ hc)
    have hy' : ∀ c ∈ x :: zs, le y c := by
      intro c hc
      rcases List.mem_cons.mp hc with rfl | hc
      · exact hyx
      · exact hy c hc
    exact List.pairwise_cons.mpr ⟨hy', List.pairwise_cons.mpr ⟨hx', hzs⟩⟩
  · have hmem : c ∈ x :: y :: zs := by
      simp only [List.mem_cons] at hc ⊢
      tauto
    exact hcross b hb c hmem

omit [Std.Total le] in
theorem Arrangement.exists_tie (h : Arrangement le rows l) (hk : Straddles le rows k a) :
    ∃ xs x y zs, l = xs ++ x :: y :: zs ∧ xs.length + 1 = k ∧ le y x := by
  obtain ⟨hbefore, hupTo⟩ := hk
  have hlength : k < l.length := by
    have hle : upTo le rows a ≤ rows.length := List.countP_le_length
    rw [h.perm.length_eq]
    omega
  have hy : le l[k] a := (h.lt_upTo_iff hlength).mpr hupTo
  have hprevious : k - 1 < l.length := by omega
  have hxa : le l[k - 1] a := (h.lt_upTo_iff hprevious).mpr (by omega)
  have hnot : ¬ k - 1 < before le rows a := by omega
  have hax : le a l[k - 1] := by
    by_contra hcon
    exact hnot ((h.lt_before_iff hprevious).mp ⟨hxa, hcon⟩)
  refine ⟨l.take (k - 1), l[k - 1], l[k], l.drop (k + 1), ?_, ?_, Trans.trans hy hax⟩
  · have hsplit := List.take_append_drop (k - 1) l
    rw [List.drop_eq_getElem_cons hprevious] at hsplit
    have hsucc : k - 1 + 1 = k := by omega
    rw [hsucc, List.drop_eq_getElem_cons hlength] at hsplit
    exact hsplit.symm
  · rw [List.length_take]
    omega

omit [Std.Total le] [IsTrans α le] [DecidableRel le] in
theorem mem_page {x : α} {i offset : ℕ} (hx : l[i]? = some x) (hle : offset ≤ i)
    (hlt : i < offset + size) : x ∈ page size offset l := by
  have hplace : (page size offset l)[i - offset]? = some x := by
    rw [page, List.getElem?_take_of_lt (by omega), List.getElem?_drop]
    rw [Nat.add_sub_cancel' hle, hx]
  exact List.mem_of_getElem? hplace

omit [Std.Total le] [IsTrans α le] [DecidableRel le] in
theorem not_nodup_pages {answers : ℕ → List α} {n i j : ℕ} {x : α} (hij : i < j) (hj : j < n)
    (hi : x ∈ page size (i * size) (answers i)) (hj' : x ∈ page size (j * size) (answers j)) :
    ¬ (pages size answers n).Nodup := by
  intro hnodup
  have hdisjoint := (List.nodup_flatMap.mp hnodup).2
  rw [List.pairwise_iff_getElem] at hdisjoint
  have hpair := hdisjoint i j (by simp; omega) (by simpa using hj) hij
  simp only [List.getElem_range, Function.onFun] at hpair
  exact hpair hi hj'

/-- Where tied rows stand on both sides, one of them may come twice. -/
theorem exists_pages_not_perm (hnodup : rows.Nodup) {i : ℕ}
    (hk : Straddles le rows (i * size) a) :
    ∃ answers : ℕ → List α, (∀ j, Arrangement le rows (answers j)) ∧
      ∀ n, rows.length ≤ n * size → ¬ (pages size answers n).Perm rows := by
  have hsorted : Arrangement le rows (rows.insertionSort le) :=
    ⟨List.perm_insertionSort le rows, List.pairwise_insertionSort le rows⟩
  obtain ⟨xs, x, y, zs, hl, hxs, hyx⟩ := hsorted.exists_tie hk
  rw [hl] at hsorted
  have hswapped := hsorted.swap hyx
  obtain ⟨j, rfl⟩ : ∃ j, i = j + 1 := Nat.exists_eq_succ_of_ne_zero fun hi => by simp [hi] at hxs
  have hlength := hsorted.perm.length_eq
  simp only [List.length_append, List.length_cons] at hlength
  have hsucc : (j + 1) * size = j * size + size := Nat.succ_mul j size
  have hsize : 0 < size := by
    by_contra hzero
    obtain rfl : size = 0 := by omega
    simp at hxs
  refine ⟨fun m => if m = j + 1 then xs ++ y :: x :: zs else xs ++ x :: y :: zs, fun m => ?_,
    fun n hn hperm => ?_⟩
  · dsimp only
    split_ifs
    · exact hswapped
    · exact hsorted
  · have hpages : j + 1 < n := by
      by_contra hle
      have := Nat.mul_le_mul_right size (not_lt.mp hle)
      omega
    have hfirst : x ∈ page size (j * size) (xs ++ x :: y :: zs) :=
      mem_page (i := xs.length) (by simp) (by omega) (by omega)
    have hsecond : x ∈ page size ((j + 1) * size) (xs ++ y :: x :: zs) := by
      have hplace : (xs ++ y :: x :: zs)[xs.length + 1]? = some x := by simp
      exact mem_page hplace (by omega) (by omega)
    refine not_nodup_pages (x := x) (Nat.lt_succ_self j) hpages ?_ ?_ (hperm.nodup_iff.mpr hnodup)
    · simpa using hfirst
    · simpa using hsecond

/-- Each row comes once, whichever way ties are broken for each page, if and only if no tied rows
stand on both sides of the end of a page. -/
theorem pages_perm_iff (hsize : 0 < size) (hnodup : rows.Nodup) :
    (∀ answers : ℕ → List α, (∀ i, Arrangement le rows (answers i)) →
      ∀ n, rows.length ≤ n * size → (pages size answers n).Perm rows) ↔
      ∀ a ∈ rows, ∀ i, ¬ Straddles le rows (i * size) a := by
  constructor
  · intro hall a _ i hk
    obtain ⟨answers, hanswers, hnot⟩ := exists_pages_not_perm hnodup hk
    have hn : rows.length ≤ rows.length * size := Nat.le_mul_of_pos_right _ hsize
    exact hnot _ hn (hall answers hanswers _ hn)
  · intro hties answers hanswers n hn
    exact pages_perm hties hanswers hn

end Order

end OrderedPages

import Mathlib.Data.List.Basic
import Mathlib.Data.List.Infix
import Mathlib.Data.List.Induction

/-! Two transactions on one record and its child rows, statement by statement, at the READ
COMMITTED level. Each reads the record once and then runs the statements planned from what
it read. A statement waits for the uncommitted writes of the other transaction that it would
touch; what a transaction writes is seen by the other once it is committed. -/
namespace ReadCommitted

structure Row (K A : Type*) where
  key : K
  content : A
  deriving DecidableEq

structure Record (K C V A : Type*) where
  columns : C → V
  rows : List (Row K A)

inductive Statement (K C V A : Type*)
  | delete (key : K)
  | update (columns : C → Option V)
  | insert (row : Row K A)

inductive Transaction (K C V A : Type*)
  | idle
  | running (loaded : Record K C V A) (done todo : List (Statement K C V A))
  | committed
  | aborted

/-- The committed record, both transactions, and the order of the commits. -/
structure System (K C V A : Type*) where
  record : Record K C V A
  transaction : Bool → Transaction K C V A
  commits : List Bool

variable {K C V A : Type*} [DecidableEq K]

def Record.apply (r : Record K C V A) : Statement K C V A → Record K C V A
  | .delete key => { r with rows := r.rows.filter fun row => row.key ≠ key }
  | .update columns => { r with columns := fun c => (columns c).getD (r.columns c) }
  | .insert row => { r with rows := r.rows ++ [row] }

def Statement.deletes (key : K) : Statement K C V A → Bool
  | .delete k => k = key
  | _ => false

def Statement.updates : Statement K C V A → Bool
  | .update _ => true
  | _ => false

section Conflicts
variable (conflicts : A → A → Bool)

def Statement.insertsConflict (a : A) : Statement K C V A → Bool
  | .insert row => conflicts row.content a
  | _ => false

/-- `st` waits for the other transaction, which has done `done` and not committed. -/
def waits (r : Record K C V A) (done : List (Statement K C V A)) : Statement K C V A → Bool
  | .delete key => r.rows.any (·.key = key) && done.any (·.deletes key)
  | .update _ => done.any (·.updates)
  | .insert row => done.any (·.insertsConflict conflicts row.content) ||
      r.rows.any fun row' => conflicts row'.content row.content && done.any (·.deletes row'.key)

/-- `st` violates a unique constraint of what its transaction sees. -/
def violates (r : Record K C V A) (done : List (Statement K C V A)) : Statement K C V A → Bool
  | .insert row => (done.foldl Record.apply r).rows.any fun row' =>
      conflicts row'.content row.content
  | _ => false

namespace System
variable (plan : Bool → Record K C V A → List (Statement K C V A))

def init (r : Record K C V A) : System K C V A := ⟨r, fun _ => .idle, []⟩

/-- The statements the other transaction has done and not committed. -/
def uncommitted (σ : System K C V A) (i : Bool) : List (Statement K C V A) :=
  match σ.transaction i with
  | .running _ done _ => done
  | _ => []

def set (σ : System K C V A) (i : Bool) (t : Transaction K C V A) : System K C V A :=
  { σ with transaction := Function.update σ.transaction i t }

def step (σ : System K C V A) (i : Bool) : System K C V A :=
  match σ.transaction i with
  | .idle => σ.set i (.running σ.record [] (plan i σ.record))
  | .running loaded done (st :: todo) =>
    if waits conflicts σ.record (σ.uncommitted !i) st then σ
    else if violates conflicts σ.record done st then σ.set i .aborted
    else σ.set i (.running loaded (done ++ [st]) todo)
  | .running _ done [] =>
    { σ.set i .committed with
      record := done.foldl Record.apply σ.record
      commits := σ.commits ++ [i] }
  | .committed => σ
  | .aborted => σ

def run (r : Record K C V A) (schedule : List Bool) : System K C V A :=
  schedule.foldl (step conflicts plan) (init r)

def IsRunning (σ : System K C V A) (i : Bool) : Prop :=
  ∃ loaded done todo, σ.transaction i = .running loaded done todo

/-- At some point both transactions have read and neither has committed. -/
def Overlaps (r : Record K C V A) (schedule : List Bool) : Prop :=
  ∃ pre, pre <+: schedule ∧ ∀ i, (run conflicts plan r pre).IsRunning i

theorem run_append_singleton (r : Record K C V A) (schedule : List Bool) (i : Bool) :
    run conflicts plan r (schedule ++ [i]) =
      (run conflicts plan r schedule).step conflicts plan i := by
  unfold run
  rw [List.foldl_append]
  rfl

theorem overlaps_append_singleton (r : Record K C V A) (schedule : List Bool) (i : Bool) :
    Overlaps conflicts plan r (schedule ++ [i]) ↔
      Overlaps conflicts plan r schedule ∨
        ∀ j, (run conflicts plan r (schedule ++ [i])).IsRunning j := by
  unfold Overlaps
  constructor
  · rintro ⟨pre, hpre, hrun⟩
    rcases List.prefix_concat_iff.mp hpre with rfl | hpre'
    · exact Or.inr hrun
    · exact Or.inl ⟨pre, hpre', hrun⟩
  · rintro (⟨pre, hpre, hrun⟩ | hrun)
    · exact ⟨pre, hpre.trans (List.prefix_append _ _), hrun⟩
    · exact ⟨_, List.prefix_rfl, hrun⟩

/-- What is known in every state of a run from the record `r`. `o` says that the
transactions have overlapped so far. -/
structure Inv (r : Record K C V A) (o : Prop) (σ : System K C V A) : Prop where
  planned : ∀ i loaded done todo, σ.transaction i = .running loaded done todo →
    done ++ todo = plan i loaded
  committed : ∀ i, i ∈ σ.commits ↔ σ.transaction i = .committed
  idle : ∀ i, σ.transaction i = .idle → ¬ o
  both : (∀ i, σ.IsRunning i) → o
  none : σ.commits = [] → σ.record = r ∧
    ∀ i loaded done todo, σ.transaction i = .running loaded done todo → loaded = r
  one : ∀ a, σ.commits = [a] → σ.record = (plan a r).foldl Record.apply r ∧
    ∀ loaded done todo, σ.transaction (!a) = .running loaded done todo →
      (o → loaded = r) ∧ (¬ o → loaded = σ.record)
  two : ∀ a b, σ.commits = [a, b] → ∃ loaded,
    σ.record = (plan b loaded).foldl Record.apply ((plan a r).foldl Record.apply r) ∧
      (o → loaded = r) ∧ (¬ o → loaded = (plan a r).foldl Record.apply r)

variable {conflicts plan} {r : Record K C V A} {o : Prop} {σ : System K C V A} {i : Bool}

theorem eq_not_of_ne {a b : Bool} (h : b ≠ a) : b = !a := by
  cases a <;> cases b <;> simp_all

/-- A step that commits nothing: a start, a statement or a failure. -/
theorem Inv.set (h : Inv plan r o σ) (hi : σ.transaction i ≠ .committed)
    {t : Transaction K C V A} (hc : t ≠ .committed) (hidle : t ≠ .idle)
    (hload : ∀ loaded done todo, t = .running loaded done todo → done ++ todo = plan i loaded ∧
      (loaded = σ.record ∧ σ.transaction i = .idle ∨
        ∃ done' todo', σ.transaction i = .running loaded done' todo')) :
    Inv plan r (o ∨ ∀ j, (σ.set i t).IsRunning j) (σ.set i t) := by
  have hself : (σ.set i t).transaction i = t := Function.update_self _ _ _
  have hother : ∀ {j}, j ≠ i → (σ.set i t).transaction j = σ.transaction j :=
    fun hj => Function.update_of_ne hj _ _
  have hnot : ∀ {a}, a ∈ σ.commits → a ≠ i := by
    rintro a ha rfl
    exact hi ((h.committed a).mp ha)
  have hcommitted : ∀ j, j ∈ (σ.set i t).commits ↔ (σ.set i t).transaction j = .committed := by
    intro j
    by_cases hj : j = i
    · subst hj
      rw [hself]
      exact iff_of_false (fun hm => hi ((h.committed j).mp hm)) hc
    · rw [hother hj]
      exact h.committed j
  have hnotboth : ∀ {a}, a ∈ σ.commits → ¬ ∀ j, (σ.set i t).IsRunning j := by
    intro a ha hall
    obtain ⟨loaded, done, todo, hr⟩ := hall a
    rw [hother (hnot ha), (h.committed a).mp ha] at hr
    cases hr
  constructor
  · intro j loaded done todo hj
    by_cases hji : j = i
    · subst hji
      exact (hload loaded done todo (hself.symm.trans hj)).1
    · exact h.planned j loaded done todo ((hother hji).symm.trans hj)
  · exact hcommitted
  · intro j hj
    have hji : j ≠ i := by
      rintro rfl
      exact hidle (hself.symm.trans hj)
    rintro (ho | hall)
    · exact h.idle j ((hother hji).symm.trans hj) ho
    · obtain ⟨loaded, done, todo, hr⟩ := hall j
      rw [hj] at hr
      cases hr
  · exact Or.inr
  · intro hnil
    obtain ⟨hrec, hall⟩ := h.none hnil
    refine ⟨hrec, ?_⟩
    intro j loaded done todo hj
    by_cases hji : j = i
    · subst hji
      rcases (hload loaded done todo (hself.symm.trans hj)).2 with ⟨hl, -⟩ | ⟨done', todo', hl⟩
      · exact hl.trans hrec
      · exact hall j loaded done' todo' hl
    · exact hall j loaded done todo ((hother hji).symm.trans hj)
  · intro a ha
    obtain ⟨hrec, hall⟩ := h.one a ha
    have ham : a ∈ σ.commits := by
      have hm : a ∈ (σ.set i t).commits := ha ▸ List.mem_singleton_self a
      exact hm
    refine ⟨hrec, ?_⟩
    obtain rfl : i = !a := eq_not_of_ne (hnot ham).symm
    intro loaded done todo hj
    rw [or_iff_left (hnotboth ham)]
    rcases (hload loaded done todo (hself.symm.trans hj)).2 with ⟨hl, hid⟩ | ⟨done', todo', hl⟩
    · exact ⟨fun ho => absurd ho (h.idle _ hid), fun _ => hl⟩
    · exact hall loaded done' todo' hl
  · intro a b hab
    obtain ⟨loaded, hl⟩ := h.two a b hab
    have ham : a ∈ σ.commits := by
      have hm : a ∈ (σ.set i t).commits := hab ▸ List.mem_cons_self
      exact hm
    rw [or_iff_left (hnotboth ham)]
    exact ⟨loaded, hl⟩

def commit (σ : System K C V A) (i : Bool) (done : List (Statement K C V A)) :
    System K C V A :=
  { σ.set i .committed with
    record := done.foldl Record.apply σ.record
    commits := σ.commits ++ [i] }

theorem Inv.commit (h : Inv plan r o σ) {loaded : Record K C V A}
    {done : List (Statement K C V A)} (hi : σ.transaction i = .running loaded done []) :
    Inv plan r (o ∨ ∀ j, (σ.commit i done).IsRunning j) (σ.commit i done) := by
  have hself : (σ.commit i done).transaction i = .committed := Function.update_self _ _ _
  have hother : ∀ {j}, j ≠ i → (σ.commit i done).transaction j = σ.transaction j :=
    fun hj => Function.update_of_ne hj _ _
  have hdone : done = plan i loaded := by
    rw [← h.planned i loaded done [] hi, List.append_nil]
  have hnotboth : ¬ ∀ j, (σ.commit i done).IsRunning j := by
    intro hall
    obtain ⟨l, d, t, hr⟩ := hall i
    rw [hself] at hr
    cases hr
  have hnew : i ∉ σ.commits := by
    intro hm
    rw [(h.committed i).mp hm] at hi
    cases hi
  rw [or_iff_left hnotboth]
  constructor
  · intro j l d t hj
    have hji : j ≠ i := by
      rintro rfl
      rw [hself] at hj
      cases hj
    exact h.planned j l d t ((hother hji).symm.trans hj)
  · intro j
    change j ∈ σ.commits ++ [i] ↔ _
    by_cases hj : j = i
    · subst hj
      exact iff_of_true (List.mem_append_right _ List.mem_cons_self) hself
    · rw [hother hj, ← h.committed j]
      simp [hj]
  · intro j hj
    have hji : j ≠ i := by
      rintro rfl
      rw [hself] at hj
      cases hj
    exact h.idle j ((hother hji).symm.trans hj)
  · exact fun hall => absurd hall hnotboth
  · intro hnil
    exact absurd hnil (List.append_ne_nil_of_right_ne_nil _ (List.cons_ne_nil i []))
  · intro a ha
    have ha' : σ.commits ++ [i] = [a] := ha
    -- This is the first commit.
    obtain ⟨hnil, rfl⟩ : σ.commits = [] ∧ i = a := by
      cases hcm : σ.commits with
      | nil =>
        rw [hcm] at ha'
        exact ⟨rfl, by simpa using ha'⟩
      | cons b bs =>
        rw [hcm] at ha'
        simp at ha'
    obtain ⟨hrec, hall⟩ := h.none hnil
    have hl : loaded = r := hall i loaded done [] hi
    have hrecord : (σ.commit i done).record = (plan i r).foldl Record.apply r := by
      change done.foldl Record.apply σ.record = _
      rw [hdone, hl, hrec]
    refine ⟨hrecord, ?_⟩
    intro l d t hj
    have hne : (!i) ≠ i := by cases i <;> decide
    have hj' : σ.transaction (!i) = .running l d t := (hother hne).symm.trans hj
    have ho : o := by
      refine h.both fun j => ?_
      by_cases hji : j = i
      · exact ⟨loaded, done, [], hji ▸ hi⟩
      · exact ⟨l, d, t, eq_not_of_ne hji ▸ hj'⟩
    exact ⟨fun _ => hall _ l d t hj', fun hno => absurd ho hno⟩
  · intro a b hab
    have hab' : σ.commits ++ [i] = [a] ++ [b] := hab
    obtain ⟨ha, hb⟩ := List.append_inj' hab' rfl
    obtain rfl : i = b := by simpa using hb
    obtain ⟨hrec, hall⟩ := h.one a ha
    have hia : i = !a := by
      refine eq_not_of_ne ?_
      rintro rfl
      exact hnew (ha ▸ List.mem_singleton_self i)
    have hl := hall loaded done [] (hia ▸ hi)
    refine ⟨loaded, ?_, hl.1, fun ho => (hl.2 ho).trans hrec⟩
    change done.foldl Record.apply σ.record = _
    rw [hdone, hrec]

theorem Inv.step (h : Inv plan r o σ) (i : Bool) :
    Inv plan r (o ∨ ∀ j, (σ.step conflicts plan i).IsRunning j) (σ.step conflicts plan i) := by
  have hstay : Inv plan r (o ∨ ∀ j, σ.IsRunning j) σ := by
    rw [or_iff_left_of_imp h.both]
    exact h
  unfold System.step
  cases hi : σ.transaction i with
  | idle =>
    refine h.set (by rw [hi]; exact nofun) nofun nofun ?_
    intro loaded done todo ht
    cases ht
    exact ⟨rfl, Or.inl ⟨rfl, hi⟩⟩
  | committed => exact hstay
  | aborted => exact hstay
  | running loaded done todo =>
    have hnc : σ.transaction i ≠ .committed := by rw [hi]; exact nofun
    cases todo with
    | nil => exact h.commit hi
    | cons st todo =>
      dsimp only
      split_ifs
      · exact hstay
      · refine h.set hnc nofun nofun ?_
        intro l d t ht
        cases ht
      · refine h.set hnc nofun nofun ?_
        intro l d t ht
        cases ht
        have hp := h.planned i loaded done (st :: todo) hi
        rw [List.append_assoc]
        exact ⟨hp, Or.inr ⟨done, st :: todo, hi⟩⟩

theorem inv_init (r : Record K C V A) : Inv plan r False (init r) := by
  constructor
  · intro i l d t h
    cases h
  · intro i
    exact iff_of_false (by simp [init]) nofun
  · intro i _ h
    exact h
  · intro h
    obtain ⟨l, d, t, hr⟩ := h true
    cases hr
  · intro _
    exact ⟨rfl, fun i l d t h => by cases h⟩
  · intro a h
    cases h
  · intro a b h
    cases h

variable (conflicts plan r) in
theorem inv_run (schedule : List Bool) :
    Inv plan r (Overlaps conflicts plan r schedule) (run conflicts plan r schedule) := by
  induction schedule using List.reverseRecOn with
  | nil =>
    have hno : ¬ Overlaps conflicts plan r [] := by
      rintro ⟨pre, hpre, hall⟩
      rw [List.prefix_nil.mp hpre] at hall
      obtain ⟨l, d, t, hr⟩ := hall true
      cases hr
    rw [iff_false_intro hno]
    exact inv_init r
  | append_singleton schedule i ih =>
    rw [overlaps_append_singleton, run_append_singleton]
    exact ih.step i

/-- What two committed transactions leave: the second one's statements after the first
one's, planned from what it read, which is the initial record if they overlapped and what
the first one left otherwise. -/
theorem record_of_commits {schedule : List Bool} {a b : Bool}
    (h : (run conflicts plan r schedule).commits = [a, b]) :
    let first := (plan a r).foldl Record.apply r
    ∃ loaded, (run conflicts plan r schedule).record =
        (plan b loaded).foldl Record.apply first ∧
      (Overlaps conflicts plan r schedule → loaded = r) ∧
      (¬ Overlaps conflicts plan r schedule → loaded = first) :=
  (inv_run conflicts plan r schedule).two a b h

end System
end Conflicts

end ReadCommitted

import Mathlib.Data.List.Nodup
import Mathlib.Data.List.Perm.Basic
import Mathlib.Logic.Function.Basic
import WazoWebhookd.Library.Run

/-! Jobs that any number of workers attempt, one attempt after the other: an attempt leaves a
record, and queues the job again or is the last one. What a job leaves does not depend on what
is attempted in between. -/
namespace JobPool

/-- One attempt of a job, and a size that goes down with every job queued again. -/
structure Attempts (J R : Type*) where
  run : J → R × Option J
  size : J → ℕ
  size_lt : ∀ {j j'}, (run j).2 = some j' → size j' < size j

variable {ι J R : Type*} (A : Attempts J R)

def Attempts.solo (j : J) : List R :=
  match _h : (A.run j).2 with
  | none => [(A.run j).1]
  | some j' => (A.run j).1 :: solo j'
termination_by A.size j
decreasing_by exact A.size_lt _h

theorem Attempts.solo_eq (j : J) :
    A.solo j = (A.run j).1 :: ((A.run j).2.map A.solo).getD [] := by
  rw [solo]
  split
  · next h => rw [h, Option.map_none, Option.getD_none]
  · next j' h => rw [h, Option.map_some, Option.getD_some]

/-- The jobs to attempt, and the records left so far with the job of each. -/
structure Pool (ι J R : Type*) where
  queue : ι → Option J
  trail : List (ι × R)

inductive Label (ι J : Type*)
  | enqueue (i : ι) (j : J)
  | work (i : ι)

namespace Pool
variable [DecidableEq ι]

def init : Pool ι J R := ⟨fun _ => none, []⟩

/-- A worker that finds no job does nothing. -/
def step (p : Pool ι J R) : Label ι J → Pool ι J R
  | .enqueue i j => { p with queue := Function.update p.queue i (some j) }
  | .work i =>
    match p.queue i with
    | none => p
    | some j => ⟨Function.update p.queue i (A.run j).2, p.trail ++ [(i, (A.run j).1)]⟩

def recorded (p : Pool ι J R) (i : ι) : List R :=
  (p.trail.filter fun entry => entry.1 = i).map Prod.snd

def pending (p : Pool ι J R) (i : ι) : List R := ((p.queue i).map A.solo).getD []

/-- A job is queued once, under a name of its own. -/
def Valid (p : Pool ι J R) : Label ι J → Prop
  | .enqueue i _ => p.queue i = none ∧ p.recorded i = []
  | .work _ => True

variable {A}

theorem recorded_concat (p : Pool ι J R) (queue : ι → Option J) (i i' : ι) (r : R) :
    (⟨queue, p.trail ++ [(i, r)]⟩ : Pool ι J R).recorded i' =
      if i = i' then p.recorded i' ++ [r] else p.recorded i' := by
  unfold recorded
  rw [List.filter_append, List.map_append]
  by_cases h : i = i'
  · simp [h]
  · simp [h]

/-- An attempt moves the first of the pending records to the recorded ones. -/
theorem recorded_pending_work (p : Pool ι J R) (i i' : ι) :
    (p.step A (.work i)).recorded i' ++ (p.step A (.work i)).pending A i' =
      p.recorded i' ++ p.pending A i' := by
  rw [step]
  split
  · rfl
  · next j hj =>
    rw [recorded_concat]
    by_cases h : i = i'
    · subst h
      simp [pending, hj, A.solo_eq j]
    · have hne : i' ≠ i := fun heq => h heq.symm
      simp [pending, h, hne]

theorem recorded_enqueue (p : Pool ι J R) (i i' : ι) (j : J) :
    (p.step A (.enqueue i j)).recorded i' = p.recorded i' := rfl

theorem pending_enqueue (p : Pool ι J R) (i i' : ι) (j : J) :
    (p.step A (.enqueue i j)).pending A i' =
      if i' = i then A.solo j else p.pending A i' := by
  unfold pending step
  by_cases h : i' = i
  · subst h
    simp
  · simp [h]

/-- The records of the jobs queued so far: for each, those it has left and those it will still
leave are the ones it leaves alone. -/
def Shares (A : Attempts J R) (jobs : ι → Option J) (p : Pool ι J R) : Prop :=
  ∀ i, p.recorded i ++ p.pending A i = ((jobs i).map A.solo).getD []

def queued (jobs : ι → Option J) : Label ι J → ι → Option J
  | .enqueue i j => Function.update jobs i (some j)
  | .work _ => jobs

theorem Shares.step {jobs : ι → Option J} {p : Pool ι J R} (hp : p.Shares A jobs)
    {l : Label ι J} (hv : p.Valid l) : (p.step A l).Shares A (queued jobs l) := by
  intro i'
  cases l with
  | work i => exact (recorded_pending_work p i i').trans (hp i')
  | enqueue i j =>
    rw [recorded_enqueue, pending_enqueue, queued]
    by_cases h : i' = i
    · subst h
      rw [if_pos rfl, hv.2, Function.update_self]
      rfl
    · rw [if_neg h, Function.update_of_ne h]
      exact hp i'

theorem shares_init : (init : Pool ι J R).Shares A fun _ => none := fun _ => rfl

/-- Whatever the order in which the workers attempt them, each job leaves a first part of the
records that it leaves alone, and all of them once it is no longer queued. -/
theorem Shares.prefix_solo {jobs : ι → Option J} {p : Pool ι J R} (hp : p.Shares A jobs) {i : ι}
    {j : J} (hj : jobs i = some j) :
    p.recorded i <+: A.solo j ∧ (p.queue i = none → p.recorded i = A.solo j) := by
  have hi := hp i
  rw [hj, Option.map_some, Option.getD_some] at hi
  constructor
  · exact ⟨_, hi⟩
  · intro hnone
    rw [pending, hnone] at hi
    simpa using hi

end Pool

/-! A queue that is a list of jobs with names: a worker takes one of them out of it, and what is
queued again goes to its end under the same name. -/

section Requeue
variable {name : J → ι} {jobs : List J} {i : ℕ} {j : J} {next : Option J}

theorem perm_taken (hi : jobs[i]? = some j) : (j :: jobs.eraseIdx i).Perm jobs := by
  obtain ⟨hlt, rfl⟩ := List.getElem?_eq_some_iff.mp hi
  exact List.getElem_cons_eraseIdx_perm hlt

theorem name_ne_of_mem_left (hn : (jobs.map name).Nodup) (hi : jobs[i]? = some j) {j' : J}
    (hj' : j' ∈ jobs.eraseIdx i) : name j' ≠ name j := by
  have hnames := ((perm_taken hi).map name).nodup_iff.mpr hn
  rw [List.map_cons, List.nodup_cons] at hnames
  intro heq
  exact hnames.1 (List.mem_map.mpr ⟨j', hj', heq⟩)

theorem names_nodup_requeue (hn : (jobs.map name).Nodup) (hi : jobs[i]? = some j)
    (hnext : ∀ j', next = some j' → name j' = name j) :
    ((jobs.eraseIdx i ++ next.toList).map name).Nodup := by
  have hnames := ((perm_taken hi).map name).nodup_iff.mpr hn
  rw [List.map_cons, List.nodup_cons] at hnames
  rw [List.map_append, List.nodup_append]
  refine ⟨hnames.2, ?_, ?_⟩
  · cases next <;> simp
  · intro u hu u' hu' heq
    obtain ⟨j', hj', rfl⟩ := List.mem_map.mp hu'
    rw [heq, hnext j' (Option.mem_toList.mp hj')] at hu
    exact hnames.1 hu

theorem mem_requeue_iff [DecidableEq ι] (hn : (jobs.map name).Nodup) (hi : jobs[i]? = some j)
    (hnext : ∀ j', next = some j' → name j' = name j) (u : ι) (j' : J) :
    (j' ∈ jobs.eraseIdx i ++ next.toList ∧ name j' = u) ↔
      if u = name j then next = some j' else j' ∈ jobs ∧ name j' = u := by
  rw [List.mem_append, Option.mem_toList]
  split_ifs with hu
  · constructor
    · rintro ⟨hold | hsome, heq⟩
      · exact absurd (heq.trans hu) (name_ne_of_mem_left hn hi hold)
      · exact hsome
    · intro hsome
      exact ⟨Or.inr hsome, (hnext j' hsome).trans hu.symm⟩
  · rw [← (perm_taken hi).mem_iff, List.mem_cons]
    constructor
    · rintro ⟨hold | hsome, heq⟩
      · exact ⟨Or.inr hold, heq⟩
      · exact absurd (heq.symm.trans (hnext j' hsome)) hu
    · rintro ⟨rfl | hold, heq⟩
      · exact absurd heq.symm hu
      · exact ⟨Or.inl hold, heq⟩

theorem filter_name_eq [DecidableEq ι] (hn : (jobs.map name).Nodup) (u : ι) {job : Option J}
    (hjob : ∀ j', job = some j' ↔ j' ∈ jobs ∧ name j' = u) :
    jobs.filter (fun j' => name j' = u) = job.toList := by
  have hnodup : (jobs.filter fun j' => name j' = u).Nodup := (List.Nodup.of_map name hn).filter _
  have hmem : ∀ j', j' ∈ jobs.filter (fun j' => name j' = u) ↔ job = some j' := by
    intro j'
    rw [hjob, List.mem_filter, decide_eq_true_eq]
  cases job with
  | none =>
    rw [Option.toList_none, List.eq_nil_iff_forall_not_mem]
    exact fun j' hj' => nomatch (hmem j').mp hj'
  | some j =>
    have hperm : (jobs.filter fun j' => name j' = u).Perm [j] := by
      refine (List.perm_ext_iff_of_nodup hnodup (List.nodup_singleton j)).mpr fun j' => ?_
      rw [hmem, List.mem_singleton, Option.some.injEq, eq_comm]
    exact List.perm_singleton.mp hperm

end Requeue

end JobPool

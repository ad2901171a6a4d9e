import Mathlib.Init

/-! Computations that may raise and whose state survives the exception, and sessions that
undo a part of the state when they do. -/

abbrev Failing (σ ε α : Type) := ExceptT ε (StateM σ) α

/-- A sequence that ends well has both its steps end well. -/
theorem Except.exists_of_bind_eq_ok {ε α β : Type} {x : Except ε α} {k : α → Except ε β} {b : β}
    (h : (x >>= k) = .ok b) : ∃ a, x = .ok a ∧ k a = .ok b := by
  cases x with
  | error e => cases h
  | ok a => exact ⟨a, rfl, h⟩

theorem Except.bind_eq_error_iff {ε α β : Type} {x : Except ε α} {k : α → Except ε β} {e : ε} :
    (x >>= k) = .error e ↔ x = .error e ∨ ∃ a, x = .ok a ∧ k a = .error e := by
  cases x with
  | error e' => simp [Bind.bind, Except.bind]
  | ok a => simp [Bind.bind, Except.bind]

theorem Except.bind_of_eq_ok {ε α β : Type} {x : Except ε α} {a : α} (h : x = .ok a)
    (k : α → Except ε β) : (x >>= k) = k a := by
  rw [h]
  rfl

theorem Except.exists_of_map_eq_ok {ε α β : Type} {x : Except ε α} {f : α → β} {b : β}
    (h : x.map f = .ok b) : ∃ a, x = .ok a ∧ f a = b := by
  cases x with
  | error e => cases h
  | ok a => exact ⟨a, rfl, Except.ok.inj h⟩

namespace Failing
variable {σ ε α β : Type}

def exec (x : Failing σ ε α) (s : σ) : Except ε α × σ := x.run.run s

/-- The end of a session: an exception passes what the state was and what it is now through
`rollback`. -/
def settle (rollback : σ → σ → σ) (s : σ) : Except ε α × σ → Except ε α × σ
  | (.ok a, s') => (.ok a, s')
  | (.error e, s') => (.error e, rollback s s')

/-- `body` and then `commit`, inside one session. -/
def session (rollback : σ → σ → σ) (commit : Failing σ ε Unit) (body : Failing σ ε α) :
    Failing σ ε α :=
  ExceptT.mk fun s => settle rollback s (exec (do let a ← body; commit; pure a) s)

/-- The same computation, raising its exceptions as others. -/
def raising {ε' : Type} (f : ε → ε') (x : Failing σ ε α) : Failing σ ε' α :=
  ExceptT.mk fun s => ((exec x s).1.mapError f, (exec x s).2)

theorem exec_raising_of_ok {ε' : Type} (f : ε → ε') {x : Failing σ ε α} {s s' : σ} {a : α}
    (h : exec x s = (.ok a, s')) : exec (raising f x) s = (.ok a, s') := by
  change ((exec x s).1.mapError f, (exec x s).2) = _
  rw [h]
  rfl

theorem exec_raising_of_error {ε' : Type} (f : ε → ε') {x : Failing σ ε α} {s s' : σ} {e : ε}
    (h : exec x s = (.error e, s')) : exec (raising f x) s = (.error (f e), s') := by
  change ((exec x s).1.mapError f, (exec x s).2) = _
  rw [h]
  rfl

@[simp] theorem exec_ofExcept (x : Except ε α) (s : σ) :
    exec (ofExcept x : Failing σ ε α) s = (x, s) := by
  cases x <;> rfl

theorem exec_of_exec_raising {ε' : Type} {f : ε → ε'} {x : Failing σ ε α} {s s' : σ} {a : α}
    (h : exec (raising f x) s = (.ok a, s')) : exec x s = (.ok a, s') := by
  change ((exec x s).1.mapError f, (exec x s).2) = _ at h
  cases hr : exec x s with
  | mk result s'' =>
    rw [hr] at h
    cases result with
    | error e => cases h
    | ok b =>
      cases h
      rfl

theorem eq_ok_of_exec_raising {ε' : Type} {f : ε → ε'} {x : Except ε α} {s s' : σ} {a : α}
    (h : exec (raising f (ofExcept x)) s = (.ok a, s')) : x = .ok a := by
  have hx := exec_of_exec_raising h
  rw [exec_ofExcept] at hx
  exact (Prod.mk.inj hx).1

@[simp] theorem exec_pure (a : α) (s : σ) :
    exec (pure a : Failing σ ε α) s = (.ok a, s) := rfl

@[simp] theorem exec_throw (e : ε) (s : σ) :
    exec (throw e : Failing σ ε α) s = (.error e, s) := rfl

@[simp] theorem exec_get (s : σ) : exec (get : Failing σ ε σ) s = (.ok s, s) := rfl

@[simp] theorem exec_modify (f : σ → σ) (s : σ) :
    exec (modify f : Failing σ ε Unit) s = (.ok (), f s) := rfl

theorem exec_bind (x : Failing σ ε α) (k : α → Failing σ ε β) (s : σ) :
    exec (x >>= k) s = match exec x s with
      | (.ok a, s') => exec (k a) s'
      | (.error e, s') => (.error e, s') := by
  unfold exec ExceptT.run StateT.run
  simp only [bind, ExceptT.bind, ExceptT.mk, StateT.bind]
  cases x s with
  | mk result s' => cases result <;> rfl

theorem exec_bind_of_ok {x : Failing σ ε α} {s s' : σ} {a : α} (h : exec x s = (.ok a, s'))
    (k : α → Failing σ ε β) : exec (x >>= k) s = exec (k a) s' := by
  rw [exec_bind, h]

theorem exec_bind_of_error {x : Failing σ ε α} {s s' : σ} {e : ε}
    (h : exec x s = (.error e, s')) (k : α → Failing σ ε β) :
    exec (x >>= k) s = (.error e, s') := by
  rw [exec_bind, h]

theorem exec_tryCatch (x : Failing σ ε α) (handler : ε → Failing σ ε α) (s : σ) :
    exec (tryCatch x handler) s = match exec x s with
      | (.ok a, s') => (.ok a, s')
      | (.error e, s') => exec (handler e) s' := by
  unfold exec ExceptT.run StateT.run
  simp only [tryCatch, tryCatchThe, MonadExceptOf.tryCatch, ExceptT.tryCatch, ExceptT.mk, bind,
    StateT.bind]
  cases x s with
  | mk result s' => cases result <;> rfl

/-- The computation changes nothing, whether it returns or raises. -/
def Reads (x : Failing σ ε α) : Prop := ∀ s, (exec x s).2 = s

theorem Reads.exec_bind_cases {x : Failing σ ε α} (hx : Reads x) (k : α → Failing σ ε β) (s : σ) :
    (∃ e, exec (x >>= k) s = (.error e, s)) ∨
      ∃ a, exec x s = (.ok a, s) ∧ exec (x >>= k) s = exec (k a) s := by
  have h := hx s
  cases hr : exec x s with
  | mk result s' =>
    obtain rfl : s' = s := by simpa [hr] using h
    cases result with
    | ok a => exact Or.inr ⟨a, rfl, exec_bind_of_ok hr k⟩
    | error e => exact Or.inl ⟨e, exec_bind_of_error hr k⟩

theorem Reads.bind {x : Failing σ ε α} {k : α → Failing σ ε β} (hx : Reads x)
    (hk : ∀ a, Reads (k a)) : Reads (x >>= k) := by
  intro s
  rcases hx.exec_bind_cases k s with ⟨e, he⟩ | ⟨a, -, hok⟩
  · rw [he]
  · rw [hok]
    exact hk a s

theorem reads_pure (a : α) : Reads (pure a : Failing σ ε α) := fun _ => rfl

theorem reads_ofExcept (x : Except ε α) : Reads (ofExcept x : Failing σ ε α) := by
  intro s
  rw [exec_ofExcept]

theorem reads_raising {ε' : Type} (f : ε → ε') {x : Failing σ ε α} (hx : Reads x) :
    Reads (raising f x) := hx

theorem exec_raising_bind_pure {ε' : Type} (f : ε → ε') (x : Failing σ ε α) (g : α → β) (s : σ) :
    (exec (raising f x >>= fun a => pure (g a)) s).2 = (exec x s).2 := by
  cases hr : exec x s with
  | mk result s' =>
    cases result with
    | ok a => rw [exec_bind_of_ok (exec_raising_of_ok f hr), exec_pure]
    | error e => rw [exec_bind_of_error (exec_raising_of_error f hr)]

/-- Whether it returns or raises, the computation keeps `I`. -/
def Preserves (I : σ → Prop) (x : Failing σ ε α) : Prop := ∀ s, I s → I (exec x s).2

section Preserves
variable {I : σ → Prop} {x : Failing σ ε α} {k : α → Failing σ ε β}

theorem Reads.preserves (hx : Reads x) : Preserves I x := by
  intro s hs
  rw [hx s]
  exact hs

theorem Preserves.raising {ε' : Type} (f : ε → ε') (hx : Preserves I x) :
    Preserves I (Failing.raising f x) := hx

theorem Preserves.bind (hx : Preserves I x) (hk : ∀ a, Preserves I (k a)) :
    Preserves I (x >>= k) := by
  intro s hs
  have hs' := hx s hs
  rw [exec_bind]
  cases hr : exec x s with
  | mk result s' =>
    rw [hr] at hs'
    cases result with
    | ok a => exact hk a s' hs'
    | error e => exact hs'

/-- What follows a reading may use what was read. -/
theorem Reads.preserves_bind (hx : Reads x)
    (hk : ∀ s a, exec x s = (.ok a, s) → I s → I (exec (k a) s).2) : Preserves I (x >>= k) := by
  intro s hs
  rcases hx.exec_bind_cases k s with ⟨e, he⟩ | ⟨a, ha, hok⟩
  · rw [he]
    exact hs
  · rw [hok]
    exact hk s a ha hs

theorem Preserves.tryCatch {handler : ε → Failing σ ε α} (hx : Preserves I x)
    (hh : ∀ e, Preserves I (handler e)) : Preserves I (tryCatch x handler) := by
  intro s hs
  have hs' := hx s hs
  rw [exec_tryCatch]
  cases hr : exec x s with
  | mk result s' =>
    rw [hr] at hs'
    cases result with
    | ok a => exact hs'
    | error e => exact hh e s' hs'

theorem preserves_forM {body : α → Failing σ ε Unit} {items : List α}
    (hbody : ∀ a ∈ items, Preserves I (body a)) : Preserves I (items.forM body) := by
  induction items with
  | nil => exact (reads_pure ()).preserves
  | cons a items ih =>
    exact (hbody a List.mem_cons_self).bind fun _ =>
      ih fun b hb => hbody b (List.mem_cons_of_mem a hb)

end Preserves

/-- The exceptions that may come of the computation are among these. -/
def RaisesOnly (p : ε → Prop) (x : Failing σ ε α) : Prop := ∀ s e, (exec x s).1 = .error e → p e

section RaisesOnly
variable {p : ε → Prop} {x : Failing σ ε α} {k : α → Failing σ ε β}

theorem raisesOnly_pure (a : α) : RaisesOnly p (pure a : Failing σ ε α) := fun _ _ h => by cases h

theorem raisesOnly_modify (f : σ → σ) : RaisesOnly p (modify f : Failing σ ε Unit) :=
  fun _ _ h => by cases h

theorem raisesOnly_get : RaisesOnly p (get : Failing σ ε σ) := fun _ _ h => by cases h

theorem raisesOnly_throw {e : ε} (he : p e) : RaisesOnly p (throw e : Failing σ ε α) := by
  intro s e' h
  cases h
  exact he

theorem raisesOnly_ofExcept {y : Except ε α} (hy : ∀ e, y = .error e → p e) :
    RaisesOnly p (ofExcept y : Failing σ ε α) := by
  intro s e h
  rw [exec_ofExcept] at h
  exact hy e h

theorem RaisesOnly.bind (hx : RaisesOnly p x) (hk : ∀ a, RaisesOnly p (k a)) :
    RaisesOnly p (x >>= k) := by
  intro s e h
  rw [exec_bind] at h
  cases hr : exec x s with
  | mk result s' =>
    rw [hr] at h
    cases result with
    | ok a => exact hk a s' e h
    | error e' =>
      cases h
      exact hx s e (congrArg Prod.fst hr)

end RaisesOnly

/-- A loop whose body returns: what is observed of the state at its end is the fold of what
each turn does to it. -/
theorem exec_forM_ok {τ : Type} (observe : σ → τ) (turn : τ → α → τ) {J : τ → Prop}
    {body : α → Failing σ ε Unit} {items : List α} (hJ : ∀ a ∈ items, ∀ t, J t → J (turn t a))
    (hbody : ∀ a ∈ items, ∀ s, J (observe s) →
      ∃ s', exec (body a) s = (.ok (), s') ∧ observe s' = turn (observe s) a)
    {s : σ} (hs : J (observe s)) :
    ∃ s', exec (items.forM body) s = (.ok (), s') ∧
      observe s' = items.foldl turn (observe s) := by
  induction items generalizing s with
  | nil => exact ⟨s, rfl, rfl⟩
  | cons a items ih =>
    obtain ⟨s₁, hok, hobserve⟩ := hbody a List.mem_cons_self s hs
    have hs₁ : J (observe s₁) := hobserve ▸ hJ a List.mem_cons_self _ hs
    obtain ⟨s₂, hrest, hend⟩ := ih (fun b hb => hJ b (List.mem_cons_of_mem _ hb))
      (fun b hb => hbody b (List.mem_cons_of_mem _ hb)) hs₁
    refine ⟨s₂, ?_, ?_⟩
    · change exec (body a >>= fun _ => items.forM body) s = _
      rw [exec_bind_of_ok hok, hrest]
    · rw [hend, hobserve, List.foldl_cons]

theorem exec_session_of_error {rollback : σ → σ → σ} {commit : Failing σ ε Unit}
    {body : Failing σ ε α} {s s' : σ} {e : ε} (h : exec body s = (.error e, s')) :
    exec (session rollback commit body) s = (.error e, rollback s s') := by
  change settle rollback s (exec (do let a ← body; commit; pure a) s) = _
  rw [exec_bind_of_error h]
  rfl

theorem exec_session_of_ok {rollback : σ → σ → σ} {commit : Failing σ ε Unit}
    {body : Failing σ ε α} {s s' : σ} {a : α} (h : exec body s = (.ok a, s')) :
    exec (session rollback commit body) s = match exec commit s' with
      | (.ok _, s'') => (.ok a, s'')
      | (.error e, s'') => (.error e, rollback s s'') := by
  change settle rollback s (exec (do let a ← body; commit; pure a) s) = _
  rw [exec_bind_of_ok h, exec_bind]
  cases exec commit s' with
  | mk result s'' => cases result <;> rfl

end Failing

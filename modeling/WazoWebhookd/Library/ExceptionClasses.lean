import Mathlib.Data.List.Infix

/-! Classes of exceptions that each derive from one other, and which handler catches what. -/
namespace ExceptionClasses

/-- A class: its name, and then the names of those it derives from. -/
structure RaisedClass where
  name : String
  bases : List String
  deriving DecidableEq

namespace RaisedClass

def lineage (c : RaisedClass) : List String := c.name :: c.bases

def derive (base : RaisedClass) (name : String) : RaisedClass := ⟨name, base.lineage⟩

/-- `issubclass(c, d)`. -/
def Derives (c d : RaisedClass) : Prop := d.lineage <:+ c.lineage

instance (c d : RaisedClass) : Decidable (c.Derives d) :=
  inferInstanceAs (Decidable (d.lineage <:+ c.lineage))

variable {c d e : RaisedClass}

@[simp] theorem derives_refl (c : RaisedClass) : c.Derives c := List.suffix_refl _

theorem Derives.comparable (hd : c.Derives d) (he : c.Derives e) : d.Derives e ∨ e.Derives d :=
  (List.suffix_or_suffix_of_suffix hd he).symm

def Unrelated (d e : RaisedClass) : Prop := ¬ d.Derives e ∧ ¬ e.Derives d

instance (d e : RaisedClass) : Decidable (Unrelated d e) :=
  inferInstanceAs (Decidable (_ ∧ _))

theorem Unrelated.not_derives (h : Unrelated d e) (hd : c.Derives d) : ¬ c.Derives e := by
  intro he
  rcases hd.comparable he with hde | hed
  · exact h.1 hde
  · exact h.2 hed

end RaisedClass

variable {ε α : Type} {cls : ε → RaisedClass} {handled : RaisedClass}
  {handler : ε → Except ε α}

/-- `try: x except handled as e: handler(e)`. -/
def tryExcept (cls : ε → RaisedClass) (handled : RaisedClass) (x : Except ε α)
    (handler : ε → Except ε α) : Except ε α :=
  match x with
  | .ok a => .ok a
  | .error e => if (cls e).Derives handled then handler e else .error e

theorem tryExcept_of_not_derives {e : ε} (h : ¬ (cls e).Derives handled) :
    tryExcept cls handled (.error e) handler = .error e := if_neg h

/-- A handler for an unrelated class lets an exception through. -/
theorem tryExcept_of_unrelated {other : RaisedClass} {e : ε} (he : (cls e).Derives other)
    (h : other.Unrelated handled) : tryExcept cls handled (.error e) handler = .error e :=
  tryExcept_of_not_derives (h.not_derives he)

theorem tryExcept_eq_error {x : Except ε α} {e : ε}
    (h : tryExcept cls handled x handler = .error e) :
    x = .error e ∨ ∃ e', x = .error e' ∧ handler e' = .error e := by
  cases x with
  | ok a => cases h
  | error e' =>
    unfold tryExcept at h
    dsimp only at h
    split_ifs at h
    · exact .inr ⟨e', rfl, h⟩
    · exact .inl h

end ExceptionClasses

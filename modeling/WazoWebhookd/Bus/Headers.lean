import Mathlib.Data.Finmap

/-! AMQP header maps and the string test the code applies to their keys. -/
namespace WazoWebhookd

/-- The values that travel in AMQP headers. -/
inductive HeaderValue
  | str (s : String)
  | bool (b : Bool)
  | int (i : ℤ)
  deriving DecidableEq

/-- Python's `==` on header values: `True` and `False` are the integers 1 and 0. -/
def HeaderValue.pyEq : HeaderValue → HeaderValue → Bool
  | .str s, .str t => s = t
  | .bool a, .bool b => a = b
  | .int i, .int j => i = j
  | .bool b, .int i => i = if b then 1 else 0
  | .int i, .bool b => i = if b then 1 else 0
  | _, _ => false

theorem HeaderValue.pyEq_str {v : HeaderValue} {s : String} :
    v.pyEq (.str s) = true ↔ v = .str s := by
  cases v <;> simp [pyEq]

abbrev Headers := Finmap fun _ : String => HeaderValue

def startswith (s start : String) : Prop := start.toList <+: s.toList

instance (s start : String) : Decidable (startswith s start) :=
  inferInstanceAs (Decidable (start.toList <+: s.toList))

theorem startswith_append (start s : String) : startswith (start ++ s) start := by
  unfold startswith
  rw [String.toList_append]
  exact List.prefix_append _ _

end WazoWebhookd

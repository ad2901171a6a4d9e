import WazoWebhookd.Library.KeyedList
import Mathlib.Data.Int.Basic
import Mathlib.Data.List.Sort
import Mathlib.Data.String.Basic

/-! JSON values as Python's `json` reads them. -/

/-- The fields of an object are in insertion order and have distinct keys, and a float is its
`repr`. -/
inductive Json
  | null
  | bool (b : Bool)
  | num (i : ℤ)
  | float (repr : String)
  | str (s : String)
  | arr (items : List Json)
  | obj (fields : List (String × Json))

namespace Json

/-- `v or {}`. -/
def orEmptyObject : Json → Json
  | .null | .bool false | .num 0 | .float "0.0" | .float "-0.0" | .str "" | .arr [] => .obj []
  | v => v

def truthy : Json → Bool
  | .null | .bool false | .num 0 | .float "0.0" | .float "-0.0" | .str "" | .arr [] | .obj [] =>
    false
  | _ => true

def isNull : Json → Bool
  | .null => true
  | _ => false

def asString : Json → Option String
  | .str s => some s
  | _ => none

/-- A string, or the `None` of a column that may be null. -/
def asNullable : Json → Option (Option String)
  | .str s => some (some s)
  | .null => some none
  | _ => none

def ofNullable : Option String → Json
  | none => .null
  | some s => .str s

def asStrings : Json → Option (List String)
  | .arr items => items.mapM asString
  | _ => none

def asFields : Json → Option (List (String × Json))
  | .obj fields => some fields
  | _ => none

mutual

/-- The value with the fields of every object in the order of their keys. -/
def sortKeys : Json → Json
  | .arr items => .arr (sortItems items)
  | .obj fields => .obj ((sortFields fields).insertionSort fun p q => p.1 ≤ q.1)
  | v => v

def sortItems : List Json → List Json
  | [] => []
  | v :: items => v.sortKeys :: sortItems items

def sortFields : List (String × Json) → List (String × Json)
  | [] => []
  | (key, v) :: fields => (key, v.sortKeys) :: sortFields fields

end

/-- Every object of the value has distinct keys, as every object that was read has. -/
inductive Distinct : Json → Prop
  | null : Distinct .null
  | bool (b : Bool) : Distinct (.bool b)
  | num (i : ℤ) : Distinct (.num i)
  | float (repr : String) : Distinct (.float repr)
  | str (s : String) : Distinct (.str s)
  | arr {items : List Json} (hitems : ∀ item ∈ items, Distinct item) : Distinct (.arr items)
  | obj {fields : List (String × Json)} (hkeys : (fields.map (·.1)).Nodup)
      (hfields : ∀ p ∈ fields, Distinct p.2) : Distinct (.obj fields)

theorem Distinct.of_lookup {data : List (String × Json)} (h : (Json.obj data).Distinct)
    {key : String} {v : Json} (hv : data.lookup key = some v) : v.Distinct := by
  cases h with
  | obj _ hfields => exact hfields _ (KeyedList.mem_of_lookup hv)

theorem Distinct.keys {fields : List (String × Json)} (h : (Json.obj fields).Distinct) :
    (fields.map (·.1)).Nodup := by
  cases h with
  | obj hkeys _ => exact hkeys

theorem asStrings_map (items : List String) : asStrings (.arr (items.map .str)) = some items := by
  change (items.map Json.str).mapM asString = some items
  induction items with
  | nil => rfl
  | cons s items ih =>
    rw [List.map_cons, List.mapM_cons, ih]
    rfl

theorem exists_map_str {items : List Json} (h : ∀ item ∈ items, ∃ s, item = .str s) :
    ∃ strings : List String, items = strings.map .str := by
  induction items with
  | nil => exact ⟨[], rfl⟩
  | cons item items ih =>
    obtain ⟨s, rfl⟩ := h item List.mem_cons_self
    obtain ⟨strings, rfl⟩ := ih fun item' hitem => h item' (List.mem_cons_of_mem _ hitem)
    exact ⟨s :: strings, rfl⟩

theorem exists_map_str_fields {fields : List (String × Json)}
    (h : ∀ p ∈ fields, ∃ s, p.2 = .str s) :
    ∃ strings : List (String × String), fields = strings.map fun p => (p.1, .str p.2) := by
  induction fields with
  | nil => exact ⟨[], rfl⟩
  | cons p fields ih =>
    obtain ⟨key, v⟩ := p
    obtain ⟨s, rfl⟩ := h _ List.mem_cons_self
    obtain ⟨strings, rfl⟩ := ih fun q hq => h q (List.mem_cons_of_mem _ hq)
    exact ⟨(key, s) :: strings, rfl⟩

theorem eq_str_of_asString {v : Json} (h : v.asString.isSome) : ∃ s, v = .str s := by
  cases v with
  | str s => exact ⟨s, rfl⟩
  | _ => cases h

end Json

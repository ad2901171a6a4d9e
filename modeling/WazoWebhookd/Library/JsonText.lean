import WazoWebhookd.Library.Json
import WazoWebhookd.Library.JsonStrings
import Mathlib.Data.List.TakeWhile

/-! JSON texts: how `json.dumps` writes a value with its keys sorted and without spaces, and how
`json.loads` reads one. The `repr` of the float that a text stands for is a parameter. -/
namespace Json
open JsonStrings

/-- `float.__repr__`, as the encoder has it. -/
def floatText (repr : String) : List Char :=
  if repr = "nan" then ['N', 'a', 'N']
  else if repr = "inf" then ['I', 'n', 'f', 'i', 'n', 'i', 't', 'y']
  else if repr = "-inf" then ['-', 'I', 'n', 'f', 'i', 'n', 'i', 't', 'y']
  else repr.toList

def intText (i : ℤ) : List Char :=
  if i < 0 then '-' :: Nat.toDigits 10 i.natAbs else Nat.toDigits 10 i.natAbs

mutual

def write : Json → List Char
  | .null => ['n', 'u', 'l', 'l']
  | .bool true => ['t', 'r', 'u', 'e']
  | .bool false => ['f', 'a', 'l', 's', 'e']
  | .num i => intText i
  | .float repr => floatText repr
  | .str s => quote s
  | .arr [] => ['[', ']']
  | .arr (v :: items) => '[' :: (write v ++ writeItems items)
  | .obj [] => ['\x7b', '\x7d']
  | .obj ((key, v) :: fields) => '\x7b' :: (quote key ++ ':' :: (write v ++ writeFields fields))

def writeItems : List Json → List Char
  | [] => [']']
  | v :: items => ',' :: (write v ++ writeItems items)

def writeFields : List (String × Json) → List Char
  | [] => ['\x7d']
  | (key, v) :: fields => ',' :: (quote key ++ ':' :: (write v ++ writeFields fields))

end

/-- `json.dumps(v, separators=(',', ':'), sort_keys=True)`. -/
def dumps (v : Json) : String := String.ofList v.sortKeys.write

def isSpace (c : Char) : Bool := c = ' ' || c = '\t' || c = '\n' || c = '\r'

def skip (text : List Char) : List Char := text.dropWhile isSpace

def scanWhole : List Char → Option (List Char × List Char)
  | [] => none
  | c :: rest =>
    if c = '0' then some ([c], rest)
    else if c.isDigit then
      some (c :: rest.takeWhile Char.isDigit, rest.dropWhile Char.isDigit)
    else none

def scanFraction : List Char → List Char × List Char
  | [] => ([], [])
  | c :: rest =>
    if c = '.' ∧ rest.takeWhile Char.isDigit ≠ [] then
      (c :: rest.takeWhile Char.isDigit, rest.dropWhile Char.isDigit)
    else ([], c :: rest)

def scanSign : List Char → List Char × List Char
  | [] => ([], [])
  | c :: rest => if c = '+' ∨ c = '-' then ([c], rest) else ([], c :: rest)

def scanExponent : List Char → List Char × List Char
  | [] => ([], [])
  | c :: rest =>
    let digits := (scanSign rest).2.takeWhile Char.isDigit
    if (c = 'e' ∨ c = 'E') ∧ digits ≠ [] then
      (c :: ((scanSign rest).1 ++ digits), (scanSign rest).2.dropWhile Char.isDigit)
    else ([], c :: rest)

def scanMinus : List Char → List Char × List Char
  | [] => ([], [])
  | c :: rest => if c = '-' then ([c], rest) else ([], c :: rest)

section Reader
variable (float : String → String)

def number (minus whole fraction exponent : List Char) : Json :=
  if fraction = [] ∧ exponent = [] then
    .num (if minus = [] then (Nat.ofDigitChars 10 whole 0 : ℤ)
      else -(Nat.ofDigitChars 10 whole 0 : ℤ))
  else .float (float (String.ofList (minus ++ whole ++ fraction ++ exponent)))

def readNumber (text : List Char) : Option (Json × List Char) :=
  (scanWhole (scanMinus text).2).map fun p =>
    let fraction := scanFraction p.2
    let exponent := scanExponent fraction.2
    (number float (scanMinus text).1 p.1 fraction.1 exponent.1, exponent.2)

def constants : List (List Char × Json) :=
  [(['n', 'u', 'l', 'l'], .null), (['t', 'r', 'u', 'e'], .bool true),
    (['f', 'a', 'l', 's', 'e'], .bool false), (['N', 'a', 'N'], .float "nan"),
    (['I', 'n', 'f', 'i', 'n', 'i', 't', 'y'], .float "inf"),
    (['-', 'I', 'n', 'f', 'i', 'n', 'i', 't', 'y'], .float "-inf")]

def readConstant (text : List Char) : Option (Json × List Char) :=
  constants.findSome? fun p =>
    if p.1.isPrefixOf text then some (p.2, text.drop p.1.length) else none

/-- What is after a character that has to come next. -/
def expect (c : Char) : List Char → Option (List Char)
  | [] => none
  | d :: rest => if d = c then some rest else none

mutual

def readValue : ℕ → List Char → Option (Json × List Char)
  | 0, _ => none
  | _ + 1, [] => none
  | fuel + 1, c :: rest =>
    if c = '"' then (scanString rest).map fun p => (.str p.1, p.2)
    else if c = '[' then
      match expect ']' (skip rest) with
      | some rest => some (.arr [], rest)
      | none => (readItems fuel (skip rest)).map fun p => (.arr p.1, p.2)
    else if c = '\x7b' then
      match expect '\x7d' (skip rest) with
      | some rest => some (.obj [], rest)
      | none =>
        (readFields fuel (skip rest)).map fun p => (.obj (KeyedList.ofPairs p.1), p.2)
    else (readNumber float (c :: rest)).or (readConstant (c :: rest))

def readItems : ℕ → List Char → Option (List Json × List Char)
  | 0, _ => none
  | fuel + 1, text => do
    let p ← readValue fuel text
    match expect ']' (skip p.2) with
    | some rest => pure ([p.1], rest)
    | none => do
      let rest ← expect ',' (skip p.2)
      let q ← readItems fuel (skip rest)
      pure (p.1 :: q.1, q.2)

def readFields : ℕ → List Char → Option (List (String × Json) × List Char)
  | 0, _ => none
  | fuel + 1, text => do
    let text ← expect '"' text
    let key ← scanString text
    let text ← expect ':' (skip key.2)
    let p ← readValue fuel (skip text)
    match expect '\x7d' (skip p.2) with
    | some rest => pure ([(key.1, p.1)], rest)
    | none => do
      let rest ← expect ',' (skip p.2)
      let q ← readFields fuel (skip rest)
      pure ((key.1, p.1) :: q.1, q.2)

end

/-- `json.loads`; `none` where it raises. -/
def loads (text : String) : Option Json := do
  let p ← readValue float (text.toList.length + 1) (skip text.toList)
  if skip p.2 = [] then pure p.1 else none

/-- A value as it was read or can be held: distinct keys, and floats that are their `repr`. -/
inductive Valid : Json → Prop
  | null : Valid .null
  | bool (b : Bool) : Valid (.bool b)
  | num (i : ℤ) : Valid (.num i)
  | float {repr : String} (h : repr ∈ ["nan", "inf", "-inf"] ∨
      readNumber float repr.toList = some (.float repr, [])) : Valid (.float repr)
  | str (s : String) : Valid (.str s)
  | arr {items : List Json} (hitems : ∀ item ∈ items, Valid item) : Valid (.arr items)
  | obj {fields : List (String × Json)} (hkeys : (fields.map (·.1)).Nodup)
      (hfields : ∀ p ∈ fields, Valid p.2) : Valid (.obj fields)

end Reader

/-- What may follow a value in a text that was written. -/
def Follows (text : List Char) : Prop := ∀ c rest, text = c :: rest → c ∈ [',', ']', '\x7d']

section Numbers
variable {float : String → String} {text rest t digits : List Char} {v : Json}

theorem follows_nil : Follows [] := fun _ _ h => by cases h

theorem follows_cons {c : Char} (h : c ∈ [',', ']', '\x7d']) : Follows (c :: t) :=
  fun _ _ heq => (List.cons.inj heq).1 ▸ h

theorem Follows.head (h : Follows rest) {c : Char} {t : List Char} (heq : rest = c :: t) :
    c.isDigit = false ∧ c ≠ '.' ∧ c ≠ 'e' ∧ c ≠ 'E' ∧ c ≠ '+' ∧ c ≠ '-' := by
  have hc := h c t heq
  simp only [List.mem_cons, List.not_mem_nil, or_false] at hc
  rcases hc with rfl | rfl | rfl <;> decide

theorem takeWhile_append (h : Follows rest) (text : List Char) :
    (text ++ rest).takeWhile Char.isDigit = text.takeWhile Char.isDigit := by
  induction text with
  | nil =>
    cases rest with
    | nil => rfl
    | cons c t => exact List.takeWhile_cons_of_neg (by simp [(h.head rfl).1])
  | cons c text ih => rw [List.cons_append, List.takeWhile_cons, List.takeWhile_cons, ih]

theorem dropWhile_append (h : Follows rest) (text : List Char) :
    (text ++ rest).dropWhile Char.isDigit = text.dropWhile Char.isDigit ++ rest := by
  induction text with
  | nil =>
    cases rest with
    | nil => rfl
    | cons c t => exact List.dropWhile_cons_of_neg (by simp [(h.head rfl).1])
  | cons c text ih =>
    rw [List.cons_append, List.dropWhile_cons, List.dropWhile_cons, ih]
    split_ifs <;> rfl

theorem scanWhole_append (h : Follows rest) (hscan : scanWhole text = some (digits, t)) :
    scanWhole (text ++ rest) = some (digits, t ++ rest) := by
  cases text with
  | nil => cases hscan
  | cons c text =>
    rw [scanWhole] at hscan
    rw [List.cons_append, scanWhole, takeWhile_append h, dropWhile_append h]
    split_ifs at hscan ⊢ <;> cases hscan <;> rfl

theorem scanFraction_append (h : Follows rest) (text : List Char) :
    scanFraction (text ++ rest) = ((scanFraction text).1, (scanFraction text).2 ++ rest) := by
  cases text with
  | nil =>
    cases rest with
    | nil => rfl
    | cons c t => exact if_neg fun hc => (h.head rfl).2.1 hc.1
  | cons c text =>
    rw [List.cons_append, scanFraction, scanFraction, takeWhile_append h, dropWhile_append h]
    split_ifs <;> rfl

theorem scanSign_append (h : Follows rest) (text : List Char) :
    scanSign (text ++ rest) = ((scanSign text).1, (scanSign text).2 ++ rest) := by
  cases text with
  | nil =>
    cases rest with
    | nil => rfl
    | cons c t =>
      obtain ⟨-, -, -, -, hplus, hminus⟩ := h.head rfl
      exact if_neg fun hc => hc.elim hplus hminus
  | cons c text =>
    rw [List.cons_append, scanSign, scanSign]
    split_ifs <;> rfl

theorem scanExponent_append (h : Follows rest) (text : List Char) :
    scanExponent (text ++ rest) = ((scanExponent text).1, (scanExponent text).2 ++ rest) := by
  cases text with
  | nil =>
    cases rest with
    | nil => rfl
    | cons c t =>
      obtain ⟨-, -, he, hE, -⟩ := h.head rfl
      exact if_neg fun hc => hc.1.elim he hE
  | cons c text =>
    rw [List.cons_append, scanExponent, scanExponent, scanSign_append h]
    dsimp only
    rw [takeWhile_append h, dropWhile_append h]
    split_ifs <;> rfl

theorem scanMinus_append (h : Follows rest) (text : List Char) :
    scanMinus (text ++ rest) = ((scanMinus text).1, (scanMinus text).2 ++ rest) := by
  cases text with
  | nil =>
    cases rest with
    | nil => rfl
    | cons c t => exact if_neg (h.head rfl).2.2.2.2.2
  | cons c text =>
    rw [List.cons_append, scanMinus, scanMinus]
    split_ifs <;> rfl

theorem readNumber_append (h : Follows rest) (hread : readNumber float text = some (v, t)) :
    readNumber float (text ++ rest) = some (v, t ++ rest) := by
  obtain ⟨⟨whole, t'⟩, hwhole, heq⟩ := Option.map_eq_some_iff.mp hread
  unfold readNumber
  rw [scanMinus_append h, scanWhole_append h hwhole, Option.map_some]
  dsimp only
  rw [scanFraction_append h, scanExponent_append h]
  obtain ⟨rfl, rfl⟩ := Prod.mk.inj heq
  rfl

theorem head_toDigits {n : ℕ} (hn : 0 < n) :
    ∃ c ds, Nat.toDigits 10 n = c :: ds ∧ c ≠ '0' := by
  induction n using Nat.strongRecOn with
  | ind n ih =>
    by_cases hlt : n < 10
    · refine ⟨_, [], Nat.toDigits_of_lt_base hlt, ?_⟩
      rw [Ne, Nat.digitChar_eq_zero]
      omega
    · obtain ⟨c, ds, hds, hc⟩ := ih (n / 10) (by omega) (by omega)
      refine ⟨c, ds ++ [Nat.digitChar (n % 10)], ?_, hc⟩
      rw [Nat.toDigits_of_base_le (by decide) (by omega), hds]
      rfl

theorem scanWhole_toDigits (n : ℕ) :
    scanWhole (Nat.toDigits 10 n) = some (Nat.toDigits 10 n, []) := by
  rcases Nat.eq_zero_or_pos n with rfl | hn
  · rfl
  · obtain ⟨c, ds, hds, hc⟩ := head_toDigits hn
    have hdigit : ∀ d ∈ c :: ds, d.isDigit := fun d hd =>
      Nat.isDigit_of_mem_toDigits (by decide) (by decide) (hds ▸ hd)
    have hall : ∀ d ∈ ds, d.isDigit := fun d hd => hdigit d (List.mem_cons_of_mem _ hd)
    rw [hds, scanWhole, if_neg hc, if_pos (hdigit c List.mem_cons_self),
      List.takeWhile_eq_self_iff.mpr hall, List.dropWhile_eq_nil_iff.mpr hall]

theorem readNumber_digits {minus : List Char} {n : ℕ}
    (hminus : scanMinus text = (minus, Nat.toDigits 10 n)) :
    readNumber float text = some (.num (if minus = [] then (n : ℤ) else -(n : ℤ)), []) := by
  unfold readNumber
  rw [hminus, scanWhole_toDigits]
  change some (number float minus (Nat.toDigits 10 n) [] [], []) = _
  unfold number
  rw [if_pos ⟨rfl, rfl⟩, Nat.ofDigitChars_ten_toDigits]

theorem readNumber_intText (i : ℤ) : readNumber float (intText i) = some (.num i, []) := by
  unfold intText
  split_ifs with hi
  · have hminus : scanMinus ('-' :: Nat.toDigits 10 i.natAbs) = (['-'], Nat.toDigits 10 i.natAbs) :=
      rfl
    rw [readNumber_digits hminus, if_neg (by decide)]
    exact congrArg (fun i => some (Json.num i, [])) (by omega)
  · have hminus : scanMinus (Nat.toDigits 10 i.natAbs) = ([], Nat.toDigits 10 i.natAbs) := by
      cases hds : Nat.toDigits 10 i.natAbs with
      | nil => rfl
      | cons c ds =>
        have hdigit : c.isDigit := Nat.isDigit_of_mem_toDigits (b := 10) (n := i.natAbs) (by decide)
          (by decide) (hds ▸ List.mem_cons_self)
        refine if_neg ?_
        rintro rfl
        cases hdigit
    rw [readNumber_digits hminus, if_pos rfl]
    exact congrArg (fun i => some (Json.num i, [])) (by omega)

end Numbers

section RoundTrip
variable {float : String → String} {text rest t : List Char} {c : Char} {v : Json}

/-- What a value may begin with, as neither a space nor the end of a list does. -/
def Begins (c : Char) : Prop := c ∉ [' ', '\t', '\n', '\r', ']', '\x7d']

instance : DecidablePred Begins := fun c => inferInstanceAs (Decidable (c ∉ _))

theorem begins_of_digit (h : c = '-' ∨ c.isDigit) :
    Begins c ∧ c ≠ '"' ∧ c ≠ '[' ∧ c ≠ '\x7b' := by
  have hne : ∀ d : Char, (d ≠ '-' ∧ d.isDigit = false) → c ≠ d := by
    rintro d ⟨hminus, hdigit⟩ rfl
    rcases h with h | h
    · exact hminus h
    · rw [hdigit] at h
      cases h
  refine ⟨fun hmem => ?_, hne _ (by decide), hne _ (by decide), hne _ (by decide)⟩
  simp only [List.mem_cons, List.not_mem_nil, or_false] at hmem
  rcases hmem with hc | hc | hc | hc | hc | hc <;> exact hne _ (by decide) hc

theorem cons_of_readNumber (h : readNumber float text = some (v, t)) :
    ∃ c rest, text = c :: rest ∧ (c = '-' ∨ c.isDigit) := by
  obtain ⟨p, hwhole, -⟩ := Option.map_eq_some_iff.mp h
  cases text with
  | nil => cases hwhole
  | cons c rest =>
    refine ⟨c, rest, rfl, ?_⟩
    by_cases hminus : c = '-'
    · exact .inl hminus
    · rw [scanMinus, if_neg hminus, scanWhole] at hwhole
      split_ifs at hwhole with hzero hdigit
      · exact .inr (hzero ▸ by decide)
      · exact .inr hdigit

theorem skip_cons (h : Begins c) : skip (c :: t) = c :: t := by
  refine List.dropWhile_cons_of_neg ?_
  unfold Begins at h
  simp only [List.mem_cons, List.not_mem_nil, or_false, not_or] at h
  simp [isSpace, h]

theorem expect_cons (c : Char) (t : List Char) : expect c (c :: t) = some t := if_pos rfl

theorem expect_of_ne {d : Char} (h : d ≠ c) : expect c (d :: t) = none := if_neg h

/-- A value that is read back wherever it was written. -/
def Reads (float : String → String) (v : Json) : Prop :=
  ∀ fuel rest, Follows rest → v.write.length < fuel →
    readValue float fuel (v.write ++ rest) = some (v, rest)

theorem reads_of_readNumber (h : readNumber float v.write = some (v, [])) : Reads float v := by
  intro fuel rest hrest hfuel
  cases fuel with
  | zero => omega
  | succ fuel =>
    have happend := readNumber_append hrest h
    obtain ⟨c, t, hcons, hc⟩ := cons_of_readNumber h
    obtain ⟨-, hquote, hbracket, hbrace⟩ := begins_of_digit hc
    rw [hcons, List.cons_append] at happend ⊢
    rw [readValue, if_neg hquote, if_neg hbracket, if_neg hbrace, happend]
    rfl

theorem reads_of_constant (h : (v.write, v) ∈ constants) : Reads float v := by
  intro fuel rest hrest hfuel
  cases fuel with
  | zero => omega
  | succ fuel =>
    have hall : ∀ p ∈ constants, readValue float (fuel + 1) (p.1 ++ rest) = some (p.2, rest) := by
      intro p hp
      simp only [constants, List.mem_cons, List.not_mem_nil, or_false] at hp
      rcases hp with rfl | rfl | rfl | rfl | rfl | rfl <;>
        simp [readValue, readNumber, scanMinus, scanWhole, readConstant, constants]
    exact hall _ h

theorem reads_str (s : String) : Reads float (.str s) := by
  intro fuel rest hrest hfuel
  cases fuel with
  | zero => omega
  | succ fuel =>
    rw [write, quote_append, readValue, if_pos rfl, scanString_quote]
    rfl

theorem float_cases {repr : String} (h : Valid float (.float repr)) :
    ((Json.float repr).write, Json.float repr) ∈ constants ∨
      readNumber float (Json.float repr).write = some (.float repr, []) := by
  rw [write]
  unfold floatText
  cases h with
  | float h =>
    split_ifs with hnan hinf hneg
    · subst hnan
      exact .inl (by simp [constants])
    · subst hinf
      exact .inl (by simp [constants])
    · subst hneg
      exact .inl (by simp [constants])
    · refine .inr (h.resolve_left ?_)
      simp [hnan, hinf, hneg]

theorem begins_write (hv : Valid float v) : ∃ c t, v.write = c :: t ∧ Begins c := by
  have hnumber : ∀ {text v}, readNumber float text = some (v, []) →
      ∃ c t, text = c :: t ∧ Begins c := by
    intro text v h
    obtain ⟨c, t, hcons, hc⟩ := cons_of_readNumber h
    exact ⟨c, t, hcons, (begins_of_digit hc).1⟩
  have hconstant : ∀ p ∈ constants, ∃ c t, p.1 = c :: t ∧ Begins c := by
    intro p hp
    simp only [constants, List.mem_cons, List.not_mem_nil, or_false] at hp
    rcases hp with rfl | rfl | rfl | rfl | rfl | rfl <;> exact ⟨_, _, rfl, by decide⟩
  have hcons : ∀ (c : Char) (t : List Char), Begins c → ∃ d u, c :: t = d :: u ∧ Begins d :=
    fun c t h => ⟨c, t, rfl, h⟩
  cases v with
  | null => exact hcons _ _ (by decide)
  | bool b => cases b <;> exact hcons _ _ (by decide)
  | num i => exact hnumber (readNumber_intText i)
  | float repr => exact (float_cases hv).elim (fun h => hconstant _ h) hnumber
  | str s => exact hcons _ _ (by decide)
  | arr items => cases items <;> exact hcons _ _ (by decide)
  | obj fields => cases fields <;> exact hcons _ _ (by decide)

theorem skip_write (hv : Valid float v) (t : List Char) : skip (v.write ++ t) = v.write ++ t := by
  obtain ⟨c, u, hcons, hc⟩ := begins_write hv
  rw [hcons, List.cons_append]
  exact skip_cons hc

theorem readItems_last {fuel : ℕ} (h : readValue float fuel text = some (v, ']' :: rest)) :
    readItems float (fuel + 1) text = some ([v], rest) := by
  rw [readItems, h]
  rfl

theorem readItems_more {fuel : ℕ} {items : List Json}
    (h : readValue float fuel text = some (v, ',' :: t))
    (hitems : readItems float fuel (skip t) = some (items, rest)) :
    readItems float (fuel + 1) text = some (v :: items, rest) := by
  have hskip : skip (',' :: t) = ',' :: t := skip_cons (by decide)
  rw [readItems, h, Option.bind_eq_bind, Option.bind_some]
  dsimp only
  rw [hskip, expect_of_ne (by decide), expect_cons]
  dsimp only
  rw [Option.bind_eq_bind, Option.bind_some, hitems]
  rfl

theorem readItems_write {items : List Json} (hv : Valid float v) (hread : Reads float v)
    (hitems : ∀ item ∈ items, Valid float item ∧ Reads float item) {fuel : ℕ} (rest : List Char)
    (hfuel : (v.write ++ writeItems items).length < fuel) :
    readItems float fuel (v.write ++ writeItems items ++ rest) = some (v :: items, rest) := by
  induction items generalizing v fuel with
  | nil =>
    cases fuel with
    | zero => omega
    | succ fuel =>
      rw [writeItems, List.length_append, List.length_singleton] at hfuel
      rw [List.append_assoc]
      exact readItems_last (hread _ _ (follows_cons (by decide)) (by omega))
  | cons item items ih =>
    cases fuel with
    | zero => omega
    | succ fuel =>
      obtain ⟨hitem, hreaditem⟩ := hitems item List.mem_cons_self
      rw [writeItems, List.length_append, List.length_cons] at hfuel
      have htext : v.write ++ writeItems (item :: items) ++ rest =
          v.write ++ ',' :: (item.write ++ writeItems items ++ rest) := by
        rw [writeItems, List.append_assoc, List.cons_append]
      have htail : readItems float fuel (item.write ++ writeItems items ++ rest) =
          some (item :: items, rest) :=
        ih hitem hreaditem (fun item' h => hitems item' (List.mem_cons_of_mem _ h)) (by omega)
      rw [htext]
      refine readItems_more (hread _ _ (follows_cons (by decide)) (by omega)) ?_
      rw [List.append_assoc, skip_write hitem, ← List.append_assoc]
      exact htail

theorem readValue_arr {fuel : ℕ} {items : List Json} (hbegins : Begins c)
    (hitems : readItems float fuel (c :: t) = some (items, rest)) :
    readValue float (fuel + 1) ('[' :: c :: t) = some (.arr items, rest) := by
  have hc : c ≠ ']' := by
    rintro rfl
    exact absurd hbegins (by decide)
  rw [readValue, if_neg (by decide), if_pos rfl, skip_cons hbegins, expect_of_ne hc]
  dsimp only
  rw [hitems]
  rfl

theorem reads_arr {items : List Json}
    (hitems : ∀ item ∈ items, Valid float item ∧ Reads float item) : Reads float (.arr items) := by
  intro fuel rest hrest hfuel
  cases fuel with
  | zero => omega
  | succ fuel =>
    cases items with
    | nil =>
      change readValue float (fuel + 1) ('[' :: ']' :: rest) = some (.arr [], rest)
      rw [readValue, if_neg (by decide), if_pos rfl]
      rfl
    | cons v items =>
      obtain ⟨hv, hread⟩ := hitems v List.mem_cons_self
      rw [write, List.length_cons] at hfuel
      have htail : readItems float fuel (v.write ++ writeItems items ++ rest) =
          some (v :: items, rest) :=
        readItems_write hv hread (fun item h => hitems item (List.mem_cons_of_mem _ h)) rest
          (by omega)
      obtain ⟨c, t, hcons, hc⟩ := begins_write hv
      rw [hcons] at htail
      rw [write, hcons]
      exact readValue_arr hc htail

theorem readFields_quote (key : String) (fuel : ℕ) :
    readFields float (fuel + 1) (quote key ++ ':' :: t) = (do
      let p ← readValue float fuel (skip t)
      match expect '\x7d' (skip p.2) with
      | some rest => pure ([(key, p.1)], rest)
      | none => do
        let rest ← expect ',' (skip p.2)
        let q ← readFields float fuel (skip rest)
        pure ((key, p.1) :: q.1, q.2)) := by
  have hskip : skip (':' :: t) = ':' :: t := skip_cons (by decide)
  rw [quote_append, readFields, expect_cons, Option.bind_eq_bind, Option.bind_some,
    scanString_quote, Option.bind_eq_bind, Option.bind_some]
  dsimp only
  rw [hskip, expect_cons]
  rfl

theorem readFields_last {key : String} {fuel : ℕ}
    (h : readValue float fuel (skip t) = some (v, '\x7d' :: rest)) :
    readFields float (fuel + 1) (quote key ++ ':' :: t) = some ([(key, v)], rest) := by
  rw [readFields_quote, h]
  rfl

theorem readFields_more {key : String} {fuel : ℕ} {u : List Char} {fields : List (String × Json)}
    (h : readValue float fuel (skip t) = some (v, ',' :: u))
    (hfields : readFields float fuel (skip u) = some (fields, rest)) :
    readFields float (fuel + 1) (quote key ++ ':' :: t) = some ((key, v) :: fields, rest) := by
  have hcomma : skip (',' :: u) = ',' :: u := skip_cons (by decide)
  rw [readFields_quote, h, Option.bind_eq_bind, Option.bind_some]
  dsimp only
  rw [hcomma, expect_of_ne (by decide), expect_cons]
  dsimp only
  rw [Option.bind_eq_bind, Option.bind_some, hfields]
  rfl

theorem readFields_write {key : String} {fields : List (String × Json)} (hv : Valid float v)
    (hread : Reads float v) (hfields : ∀ p ∈ fields, Valid float p.2 ∧ Reads float p.2) {fuel : ℕ}
    (rest : List Char)
    (hfuel : (quote key ++ ':' :: (v.write ++ writeFields fields)).length < fuel) :
    readFields float fuel (quote key ++ ':' :: (v.write ++ writeFields fields ++ rest)) =
      some ((key, v) :: fields, rest) := by
  induction fields generalizing key v fuel with
  | nil =>
    cases fuel with
    | zero => omega
    | succ fuel =>
      rw [writeFields, List.length_append, List.length_cons, List.length_append] at hfuel
      refine readFields_last ?_
      rw [List.append_assoc, skip_write hv]
      exact hread _ _ (follows_cons (by decide)) (by omega)
  | cons p fields ih =>
    obtain ⟨key', v'⟩ := p
    cases fuel with
    | zero => omega
    | succ fuel =>
      obtain ⟨hv', hread'⟩ : Valid float v' ∧ Reads float v' := hfields _ List.mem_cons_self
      have htext : v.write ++ writeFields ((key', v') :: fields) ++ rest = v.write ++
          ',' :: (quote key' ++ ':' :: (v'.write ++ writeFields fields ++ rest)) := by
        simp [writeFields]
      have hlength : (quote key ++ ':' :: (v.write ++ writeFields ((key', v') :: fields))).length =
          (quote key).length + 1 + v.write.length + 1 +
            (quote key' ++ ':' :: (v'.write ++ writeFields fields)).length := by
        simp [writeFields]
        omega
      rw [hlength] at hfuel
      have htail : readFields float fuel
          (quote key' ++ ':' :: (v'.write ++ writeFields fields ++ rest)) =
            some ((key', v') :: fields, rest) :=
        ih hv' hread' (fun q h => hfields q (List.mem_cons_of_mem _ h)) (by omega)
      have hskip : ∀ u, skip (quote key' ++ u) = quote key' ++ u := fun u => by
        rw [quote_append]
        exact skip_cons (by decide)
      rw [htext]
      refine readFields_more ?_ ((congrArg _ (hskip _)).trans htail)
      rw [skip_write hv]
      exact hread _ _ (follows_cons (by decide)) (by omega)

theorem readValue_obj {fuel : ℕ} {fields : List (String × Json)} (hbegins : Begins c)
    (hfields : readFields float fuel (c :: t) = some (fields, rest)) :
    readValue float (fuel + 1) ('\x7b' :: c :: t) =
      some (.obj (KeyedList.ofPairs fields), rest) := by
  have hc : c ≠ '\x7d' := by
    rintro rfl
    exact absurd hbegins (by decide)
  rw [readValue, if_neg (by decide), if_neg (by decide), if_pos rfl, skip_cons hbegins,
    expect_of_ne hc]
  dsimp only
  rw [hfields]
  rfl

theorem reads_obj {fields : List (String × Json)} (hkeys : (fields.map (·.1)).Nodup)
    (hfields : ∀ p ∈ fields, Valid float p.2 ∧ Reads float p.2) : Reads float (.obj fields) := by
  intro fuel rest hrest hfuel
  cases fuel with
  | zero => omega
  | succ fuel =>
    cases fields with
    | nil =>
      change readValue float (fuel + 1) ('\x7b' :: '\x7d' :: rest) = some (.obj [], rest)
      rw [readValue, if_neg (by decide), if_neg (by decide), if_pos rfl]
      rfl
    | cons p fields =>
      obtain ⟨key, v⟩ := p
      obtain ⟨hv, hread⟩ : Valid float v ∧ Reads float v := hfields _ List.mem_cons_self
      rw [write, List.length_cons] at hfuel
      have htail : readFields float fuel
          (quote key ++ ':' :: (v.write ++ writeFields fields ++ rest)) =
            some ((key, v) :: fields, rest) :=
        readFields_write hv hread (fun q h => hfields q (List.mem_cons_of_mem _ h)) rest (by omega)
      rw [quote_append] at htail
      have hobj := readValue_obj (by decide) htail
      rw [KeyedList.ofPairs_of_nodup hkeys, ← quote_append] at hobj
      rw [write, List.cons_append, List.append_assoc, List.cons_append]
      exact hobj

/-- Every value is read back wherever it was written. -/
theorem reads_of_valid (hv : Valid float v) : Reads float v := by
  induction hv with
  | null => exact reads_of_constant (by simp [constants, write])
  | bool b => cases b <;> exact reads_of_constant (by simp [constants, write])
  | num i => exact reads_of_readNumber (readNumber_intText i)
  | float h => exact (float_cases (.float h)).elim reads_of_constant reads_of_readNumber
  | str s => exact reads_str s
  | arr hitems ih => exact reads_arr fun item hitem => ⟨hitems item hitem, ih item hitem⟩
  | obj hkeys hfields ih => exact reads_obj hkeys fun p hp => ⟨hfields p hp, ih p hp⟩

theorem sortItems_eq_map (items : List Json) : sortItems items = items.map sortKeys := by
  induction items with
  | nil => rfl
  | cons v items ih => rw [sortItems, ih, List.map_cons]

theorem sortFields_eq_map (fields : List (String × Json)) :
    sortFields fields = fields.map fun p => (p.1, p.2.sortKeys) := by
  induction fields with
  | nil => rfl
  | cons p fields ih => rw [sortFields, ih, List.map_cons]

theorem valid_sortKeys (hv : Valid float v) : Valid float v.sortKeys := by
  induction hv with
  | null => exact .null
  | bool b => exact .bool b
  | num i => exact .num i
  | float h => exact .float h
  | str s => exact .str s
  | arr hitems ih =>
    rw [sortKeys, sortItems_eq_map]
    exact .arr (List.forall_mem_map.mpr ih)
  | @obj fields hkeys hfields ih =>
    rw [sortKeys, sortFields_eq_map]
    have hperm := List.perm_insertionSort (fun p q : String × Json => p.1 ≤ q.1)
      (fields.map fun p => (p.1, p.2.sortKeys))
    have hall : ∀ q ∈ fields.map fun p => (p.1, p.2.sortKeys), Valid float q.2 :=
      List.forall_mem_map.mpr ih
    refine .obj ?_ fun q hq => hall q (hperm.mem_iff.mp hq)
    rw [(hperm.map _).nodup_iff, List.map_map]
    exact hkeys

/-- What is written is read back, with its keys sorted. -/
theorem loads_dumps (hv : Valid float v) : loads float v.dumps = some v.sortKeys := by
  have hsorted := valid_sortKeys hv
  have hread := reads_of_valid hsorted (v.sortKeys.write.length + 1) [] follows_nil (by omega)
  have hskip := skip_write hsorted []
  rw [List.append_nil] at hread hskip
  unfold loads dumps
  rw [String.toList_ofList, hskip, hread]
  rfl

theorem Valid.of_lookup {fields : List (String × Json)} (h : Valid float (.obj fields))
    {key : String} (hv : fields.lookup key = some v) : Valid float v := by
  cases h with
  | obj _ hfields => exact hfields _ (KeyedList.mem_of_lookup hv)

theorem Valid.setItem {fields : List (String × Json)} (h : Valid float (.obj fields))
    (key : String) (hv : Valid float v) :
    Valid float (.obj (KeyedList.setItem key v fields)) := by
  cases h with
  | obj hkeys hfields =>
    refine .obj (KeyedList.nodup_setItem hkeys key v) fun p hp => ?_
    rcases KeyedList.mem_of_mem_setItem hp with rfl | hp
    · exact hv
    · exact hfields p hp

end RoundTrip

end Json

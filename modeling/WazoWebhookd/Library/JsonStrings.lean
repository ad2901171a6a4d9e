import WazoWebhookd.Library.KeyedList
import Mathlib.Data.Nat.Notation

/-! The strings of JSON texts: how they are escaped to ASCII, and how they are read back. -/
namespace JsonStrings

/-- The escapes of one letter that are written. -/
def escapes : List (Char × Char) :=
  [('\\', '\\'), ('"', '"'), ('\x08', 'b'), ('\x0c', 'f'), ('\n', 'n'), ('\r', 'r'), ('\t', 't')]

/-- Those that are read. -/
def backslash : List (Char × Char) :=
  [('"', '"'), ('\\', '\\'), ('/', '/'), ('b', '\x08'), ('f', '\x0c'), ('n', '\n'), ('r', '\r'),
    ('t', '\t')]

/-- A number of sixteen bits in hexadecimal digits. -/
def hex4 (u : ℕ) : List Char :=
  [Nat.digitChar (u / 4096), Nat.digitChar (u / 256 % 16), Nat.digitChar (u / 16 % 16),
    Nat.digitChar (u % 16)]

def hexValue (c : Char) : Option ℕ :=
  if c.isDigit then some (c.toNat - 48)
  else if 97 ≤ c.toNat ∧ c.toNat ≤ 102 then some (c.toNat - 87)
  else if 65 ≤ c.toNat ∧ c.toNat ≤ 70 then some (c.toNat - 55)
  else none

def hexNumber (a b c d : Char) : Option ℕ := do
  let a ← hexValue a
  let b ← hexValue b
  let c ← hexValue c
  let d ← hexValue d
  pure (4096 * a + 256 * b + 16 * c + d)

/-- A character past the first plane is a pair of surrogates. -/
def codeUnits (c : Char) : List ℕ :=
  if c.toNat < 0x10000 then [c.toNat]
  else [0xd800 + (c.toNat - 0x10000) / 1024, 0xdc00 + (c.toNat - 0x10000) % 1024]

def escape (c : Char) : List Char :=
  match escapes.lookup c with
  | some e => ['\\', e]
  | none =>
    if 0x20 ≤ c.toNat ∧ c.toNat ≤ 0x7e then [c]
    else (codeUnits c).flatMap fun u => '\\' :: 'u' :: hex4 u

/-- The code units up to the closing quote, and what is after it. -/
def scanUnits : List Char → Option (List ℕ × List Char)
  | [] => none
  | c :: rest =>
    if c = '"' then some ([], rest)
    else if c = '\\' then
      match rest with
      | 'u' :: a :: b :: c :: d :: rest => do
        let u ← hexNumber a b c d
        (scanUnits rest).map fun p => (u :: p.1, p.2)
      | e :: rest => do
        let c ← backslash.lookup e
        (scanUnits rest).map fun p => (c.toNat :: p.1, p.2)
      | [] => none
    else if c.toNat < 0x20 then none
    else (scanUnits rest).map fun p => (c.toNat :: p.1, p.2)

/-- The characters of the code units. A surrogate without its other half is no character. -/
def joinSurrogates : List ℕ → Option (List Char)
  | [] => some []
  | u :: us =>
    if 0xd800 ≤ u ∧ u ≤ 0xdbff then
      match us with
      | v :: us =>
        if 0xdc00 ≤ v ∧ v ≤ 0xdfff then
          (joinSurrogates us).map
            (Char.ofNat (0x10000 + (u - 0xd800) * 1024 + (v - 0xdc00)) :: ·)
        else none
      | [] => none
    else if 0xdc00 ≤ u ∧ u ≤ 0xdfff then none
    else (joinSurrogates us).map (Char.ofNat u :: ·)

/-- A string after its opening quote. -/
def scanString (text : List Char) : Option (String × List Char) := do
  let (us, rest) ← scanUnits text
  let chars ← joinSurrogates us
  pure (String.ofList chars, rest)

def quote (s : String) : List Char := '"' :: (s.toList.flatMap escape ++ ['"'])

section Spec
variable {c : Char} {u : ℕ} {us : List ℕ} {rest t : List Char}

theorem hexValue_digitChar : ∀ n < 16, hexValue (Nat.digitChar n) = some n := by decide

theorem hexNumber_hex4 (hu : u < 65536) :
    hexNumber (Nat.digitChar (u / 4096)) (Nat.digitChar (u / 256 % 16))
      (Nat.digitChar (u / 16 % 16)) (Nat.digitChar (u % 16)) = some u := by
  unfold hexNumber
  rw [hexValue_digitChar _ (by omega), hexValue_digitChar _ (by omega),
    hexValue_digitChar _ (by omega), hexValue_digitChar _ (by omega)]
  exact congrArg some (by omega)

theorem scanUnits_hex4 (hu : u < 65536) (h : scanUnits rest = some (us, t)) :
    scanUnits ('\\' :: 'u' :: (hex4 u ++ rest)) = some (u :: us, t) := by
  change (hexNumber _ _ _ _).bind (fun u => (scanUnits rest).map _) = _
  rw [hexNumber_hex4 hu, h]
  rfl

theorem toNat_valid (c : Char) :
    c.toNat < 0xd800 ∨ 0xdfff < c.toNat ∧ c.toNat < 0x110000 := c.valid

theorem codeUnits_lt (hu : u ∈ codeUnits c) : u < 65536 := by
  have hc := toNat_valid c
  unfold codeUnits at hu
  split_ifs at hu with h
  · rw [List.mem_singleton.mp hu]
    exact h
  · simp only [List.mem_cons, List.not_mem_nil, or_false] at hu
    omega

theorem scanUnits_flatMap (hus : ∀ u ∈ us, u < 65536) {vs : List ℕ}
    (h : scanUnits rest = some (vs, t)) :
    scanUnits (us.flatMap (fun u => '\\' :: 'u' :: hex4 u) ++ rest) = some (us ++ vs, t) := by
  induction us with
  | nil => exact h
  | cons u us ih =>
    have htail := ih fun v hv => hus v (List.mem_cons_of_mem _ hv)
    rw [List.flatMap_cons, List.append_assoc]
    exact scanUnits_hex4 (hus u List.mem_cons_self) htail

theorem scanUnits_plain (hquote : c ≠ '"') (hslash : c ≠ '\\') (hc : 0x20 ≤ c.toNat)
    (h : scanUnits rest = some (us, t)) : scanUnits (c :: rest) = some (c.toNat :: us, t) := by
  rw [scanUnits.eq_def]
  dsimp only
  rw [if_neg hquote, if_neg hslash, if_neg (by omega), h]
  rfl

theorem scanUnits_backslash {e : Char} (he : backslash.lookup e = some c) (hu : e ≠ 'u')
    (h : scanUnits rest = some (us, t)) :
    scanUnits ('\\' :: e :: rest) = some (c.toNat :: us, t) := by
  rw [scanUnits.eq_def]
  dsimp only
  rw [if_neg (by decide), if_pos rfl]
  split
  · rename_i heq
    exact absurd (List.cons.inj heq).1 hu
  · rename_i heq
    obtain ⟨rfl, rfl⟩ := List.cons.inj heq
    rw [he, h]
    rfl
  · rename_i heq
    cases heq

theorem backslash_of_escapes : ∀ p ∈ escapes, backslash.lookup p.2 = some p.1 ∧ p.2 ≠ 'u' ∧
    codeUnits p.1 = [p.1.toNat] := by decide

theorem scanUnits_escape (h : scanUnits rest = some (us, t)) :
    scanUnits (escape c ++ rest) = some (codeUnits c ++ us, t) := by
  unfold escape
  cases hescape : escapes.lookup c with
  | some e =>
    obtain ⟨hback, hu, hunits⟩ := backslash_of_escapes _ (KeyedList.mem_of_lookup hescape)
    rw [hunits]
    exact scanUnits_backslash hback hu h
  | none =>
    have hquote : c ≠ '"' := by
      rintro rfl
      cases hescape
    have hslash : c ≠ '\\' := by
      rintro rfl
      cases hescape
    dsimp only
    split_ifs with hplain
    · have hunits : codeUnits c = [c.toNat] := if_pos (by omega)
      rw [hunits]
      exact scanUnits_plain hquote hslash hplain.1 h
    · exact scanUnits_flatMap (fun u hu => codeUnits_lt hu) h

theorem joinSurrogates_single (hu : ¬ (0xd800 ≤ u ∧ u ≤ 0xdfff)) {chars : List Char}
    (h : joinSurrogates us = some chars) :
    joinSurrogates (u :: us) = some (Char.ofNat u :: chars) := by
  rw [joinSurrogates.eq_def]
  dsimp only
  rw [if_neg (by omega), if_neg (by omega), h]
  rfl

theorem joinSurrogates_pair {v : ℕ} (hu : 0xd800 ≤ u ∧ u ≤ 0xdbff) (hv : 0xdc00 ≤ v ∧ v ≤ 0xdfff)
    {chars : List Char} (h : joinSurrogates us = some chars) :
    joinSurrogates (u :: v :: us) =
      some (Char.ofNat (0x10000 + (u - 0xd800) * 1024 + (v - 0xdc00)) :: chars) := by
  rw [joinSurrogates.eq_def]
  dsimp only
  rw [if_pos hu, if_pos hv, h]
  rfl

theorem joinSurrogates_codeUnits {chars : List Char} (h : joinSurrogates us = some chars) :
    joinSurrogates (codeUnits c ++ us) = some (c :: chars) := by
  have hc := toNat_valid c
  unfold codeUnits
  split_ifs with hsmall
  · have hsingle := joinSurrogates_single (u := c.toNat) (by omega) h
    rw [Char.ofNat_toNat] at hsingle
    exact hsingle
  · have hpair := joinSurrogates_pair (u := 0xd800 + (c.toNat - 0x10000) / 1024)
      (v := 0xdc00 + (c.toNat - 0x10000) % 1024) (by omega) (by omega) h
    have hcode : 0x10000 + (0xd800 + (c.toNat - 0x10000) / 1024 - 0xd800) * 1024 +
        (0xdc00 + (c.toNat - 0x10000) % 1024 - 0xdc00) = c.toNat := by omega
    rw [hcode, Char.ofNat_toNat] at hpair
    exact hpair

/-- What was written is read back. -/
theorem scanString_quote (s : String) (rest : List Char) :
    scanString (s.toList.flatMap escape ++ '"' :: rest) = some (s, rest) := by
  have hscan : ∀ chars : List Char,
      scanUnits (chars.flatMap escape ++ '"' :: rest) = some (chars.flatMap codeUnits, rest) := by
    intro chars
    induction chars with
    | nil =>
      change scanUnits ('"' :: rest) = some ([], rest)
      rw [scanUnits.eq_def]
      exact if_pos rfl
    | cons c chars ih =>
      rw [List.flatMap_cons, List.flatMap_cons, List.append_assoc]
      exact scanUnits_escape ih
  have hjoin : ∀ chars : List Char, joinSurrogates (chars.flatMap codeUnits) = some chars := by
    intro chars
    induction chars with
    | nil => rfl
    | cons c chars ih => exact joinSurrogates_codeUnits ih
  unfold scanString
  rw [hscan, Option.bind_eq_bind, Option.bind_some]
  dsimp only
  rw [hjoin]
  exact congrArg (fun s => some (s, rest)) String.ofList_toList

theorem quote_append (s : String) (rest : List Char) :
    quote s ++ rest = '"' :: (s.toList.flatMap escape ++ '"' :: rest) := by
  simp [quote]

end Spec

end JsonStrings

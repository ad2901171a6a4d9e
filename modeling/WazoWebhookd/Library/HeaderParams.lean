import Mathlib

/-! Headers of a value with `name=value` parameters: how a reader splits them at the semicolons
outside of the quotes, unquotes the values and collects the parameters of RFC 2231. -/
namespace HeaderParams

/-- Where a reader is: within quotes or not, and after a backslash or not. -/
structure Scan where
  quoted : Bool
  escaped : Bool

def Scan.start : Scan := ⟨false, false⟩

def Scan.step (st : Scan) (c : Char) : Scan where
  quoted := if c = '"' ∧ !st.escaped then !st.quoted else st.quoted
  escaped := c = '\\'

def Scan.run (st : Scan) (s : List Char) : Scan := s.foldl Scan.step st

/-- What stands between the semicolons that are outside of the quotes. -/
def parts : Scan → List Char → List (List Char)
  | _, [] => [[]]
  | st, c :: s =>
    if c = ';' ∧ !st.quoted then [] :: parts .start s
    else (parts (st.step c) s).modifyHead (c :: ·)

/-- No semicolon of the text is outside of the quotes. -/
def Whole : Scan → List Char → Prop
  | _, [] => True
  | st, c :: s => ¬ (c = ';' ∧ !st.quoted) ∧ Whole (st.step c) s

instance : ∀ st s, Decidable (Whole st s)
  | _, [] => inferInstanceAs (Decidable True)
  | st, c :: s =>
    have := instDecidableWhole (st.step c) s
    inferInstanceAs (Decidable (_ ∧ _))

/-- A part that a semicolon may follow. -/
def Closed (s : List Char) : Prop := Whole .start s ∧ (Scan.start.run s).quoted = false

instance (s : List Char) : Decidable (Closed s) := inferInstanceAs (Decidable (_ ∧ _))

def join (p : List Char) (ps : List (List Char)) : List Char := p ++ ps.flatMap fun q => ';' :: q

/-- Only the last part may leave its quotes open. -/
def Separate : List Char → List (List Char) → Prop
  | p, [] => Whole .start p
  | p, q :: ps => Closed p ∧ Separate q ps

instance : ∀ p ps, Decidable (Separate p ps)
  | _, [] => inferInstanceAs (Decidable (Whole _ _))
  | _, q :: ps =>
    have := instDecidableSeparate q ps
    inferInstanceAs (Decidable (_ ∧ _))

section Parts
variable {st : Scan} {p q s t : List Char} {ps : List (List Char)}

theorem join_cons : join p (q :: ps) = p ++ ';' :: join q ps := by
  simp [join]

theorem parts_of_whole (h : Whole st s) : parts st s = [s] := by
  induction s generalizing st with
  | nil => rfl
  | cons c s ih => rw [parts, if_neg h.1, ih h.2, List.modifyHead_cons]

theorem parts_append (hs : Whole st s) (hq : (st.run s).quoted = false) :
    parts st (s ++ ';' :: t) = s :: parts .start t := by
  induction s generalizing st with
  | nil =>
    have : st.quoted = false := hq
    simp [parts, this]
  | cons c s ih => rw [List.cons_append, parts, if_neg hs.1, ih hs.2 hq, List.modifyHead_cons]

theorem whole_append :
    Whole st (s ++ t) ↔ Whole st s ∧ Whole (st.run s) t := by
  induction s generalizing st with
  | nil => simp [Whole, Scan.run]
  | cons c s ih =>
    rw [List.cons_append, Whole, Whole, ih, and_assoc]
    rfl

theorem parts_cases (st : Scan) (s : List Char) :
    (Whole st s ∧ parts st s = [s]) ∨
      ∃ p t, s = p ++ ';' :: t ∧ Whole st p ∧ (st.run p).quoted = false ∧
        parts st s = p :: parts .start t := by
  induction s generalizing st with
  | nil => exact .inl ⟨trivial, rfl⟩
  | cons c s ih =>
    by_cases hc : c = ';' ∧ !st.quoted
    · obtain ⟨rfl, hq⟩ := hc
      have hq : st.quoted = false := by simpa using hq
      exact .inr ⟨[], s, rfl, trivial, hq, by simp [parts, hq]⟩
    · rw [parts, if_neg hc]
      rcases ih (st.step c) with ⟨hw, hparts⟩ | ⟨p, t, rfl, hw, hq, hparts⟩
      · exact .inl ⟨⟨hc, hw⟩, by rw [hparts, List.modifyHead_cons]⟩
      · exact .inr ⟨c :: p, t, rfl, ⟨hc, hw⟩, hq, by rw [hparts, List.modifyHead_cons]⟩

theorem parts_join (h : Separate p ps) : parts .start (join p ps) = p :: ps := by
  induction ps generalizing p with
  | nil => simpa [join] using parts_of_whole h
  | cons q ps ih => rw [join_cons, parts_append h.1.1 h.1.2, ih h.2]

theorem exists_parts (s : List Char) :
    ∃ p ps, parts .start s = p :: ps ∧ s = join p ps ∧ Separate p ps := by
  induction hn : s.length using Nat.strong_induction_on generalizing s with
  | _ n ih =>
    rcases parts_cases .start s with ⟨hw, hparts⟩ | ⟨p, t, rfl, hw, hq, hparts⟩
    · exact ⟨s, [], hparts, by simp [join], hw⟩
    · have hlt : t.length < n := by
        rw [← hn, List.length_append, List.length_cons]
        omega
      obtain ⟨q, qs, hqs, rfl, hsep⟩ := ih t.length hlt t rfl
      exact ⟨p, q :: qs, by rw [hparts, hqs], join_cons.symm, ⟨hw, hq⟩, hsep⟩

theorem Separate.concat (h : Separate p (ps ++ [q])) (hq : (Scan.start.run q).quoted = false)
    (hs : Whole .start s) : Separate p (ps ++ [q, s]) := by
  induction ps generalizing p with
  | nil => exact ⟨h.1, ⟨h.2, hq⟩, hs⟩
  | cons r ps ih => exact ⟨h.1, ih h.2⟩

theorem whole_of_quoted (hst : st.quoted = true) (hs : '"' ∉ s) : Whole st s := by
  induction s generalizing st with
  | nil => trivial
  | cons c s ih =>
    rw [List.mem_cons, not_or] at hs
    have hc : ¬ (c = '"' ∧ !st.escaped) := fun h => hs.1 h.1.symm
    refine ⟨by simp [hst], ih ?_ hs.2⟩
    rw [Scan.step, if_neg hc]
    exact hst

/-- Quotes that are left open take in what follows. -/
theorem Separate.merge (h : Separate p (ps ++ [q])) (hq : (Scan.start.run q).quoted = true)
    (hs : '"' ∉ s) : Separate p (ps ++ [q ++ ';' :: s]) := by
  have hsemicolon : '"' ∉ ';' :: s := fun hmem => (List.mem_cons.mp hmem).elim (by decide) hs
  induction ps generalizing p with
  | nil => exact ⟨h.1, whole_append.mpr ⟨h.2, whole_of_quoted hq hsemicolon⟩⟩
  | cons r ps ih => exact ⟨h.1, ih h.2⟩

theorem join_merge : join p (ps ++ [q ++ ';' :: s]) = join p (ps ++ [q, s]) := by
  simp [join]

theorem Separate.of_append {qs : List (List Char)} (h : Separate p (ps ++ qs)) :
    Separate p ps := by
  induction ps generalizing p with
  | nil =>
    cases qs with
    | nil => exact h
    | cons q qs => exact h.1.1
  | cons r ps ih => exact ⟨h.1, ih h.2⟩

/-- What precedes the first part is not read with it. -/
theorem parts_join_of_closed (hp : Closed p) (ps : List (List Char)) :
    ∃ qs, parts .start (join p ps) = p :: qs ∧
      qs.flatMap (fun q => ';' :: q) = ps.flatMap fun q => ';' :: q := by
  cases ps with
  | nil => exact ⟨[], by simpa [join] using parts_of_whole hp.1, rfl⟩
  | cons q ps =>
    obtain ⟨r, rs, hparts, hjoin, -⟩ := exists_parts (join q ps)
    refine ⟨r :: rs, by rw [join_cons, parts_append hp.1 hp.2, hparts], ?_⟩
    exact congrArg (List.cons ';') hjoin.symm

theorem parts_join_iff : parts .start (join p ps) = p :: ps ↔ Separate p ps := by
  refine ⟨fun h => ?_, parts_join⟩
  obtain ⟨q, qs, hparts, -, hsep⟩ := exists_parts (join p ps)
  obtain ⟨rfl, rfl⟩ := List.cons.inj (h.symm.trans hparts)
  exact hsep

end Parts

/-- The text with every backslash that is before `c` left out. -/
def unescape (c : Char) : List Char → List Char
  | [] => []
  | [a] => [a]
  | a :: b :: s =>
    if a = '\\' ∧ b = c then c :: unescape c s else a :: unescape c (b :: s)

def wrapped (s : List Char) (before after : Char) : Prop :=
  1 < s.length ∧ s.head? = some before ∧ s.getLast? = some after

instance (s : List Char) (before after : Char) : Decidable (wrapped s before after) :=
  inferInstanceAs (Decidable (_ ∧ _))

def unquote (s : List Char) : List Char :=
  if wrapped s '"' '"' then unescape '"' (unescape '\\' s.tail.dropLast)
  else if wrapped s '<' '>' then s.tail.dropLast
  else s

def quote (s : List Char) : List Char :=
  s.flatMap fun c => if c = '\\' ∨ c = '"' then ['\\', c] else [c]

/-- The value of a parameter; one with a charset comes as a triple. -/
inductive Value
  | text (s : List Char)
  | encoded (charset language : Option (List Char)) (value : List Char)
  deriving DecidableEq

def isWord (c : Char) : Bool := c.isAlphanum || c = '_'

def number (digits : List Char) : ℕ := digits.foldl (fun n c => 10 * n + (c.toNat - 48)) 0

/-- The parameter that a name of RFC 2231 continues, and where. -/
def continuation (name : List Char) : Option (List Char × Option ℕ) :=
  match name.takeWhile isWord, name.dropWhile isWord with
  | base@(_ :: _), '*' :: s =>
    match s.takeWhile Char.isDigit, s.dropWhile Char.isDigit with
    | [], [] => some (base, none)
    | digits@(_ :: _), [] | digits@(_ :: _), ['*'] => some (base, some (number digits))
    | _, _ => none
  | _, _ => none

structure Piece where
  number : Option ℕ
  text : List Char
  percent : Bool

def Piece.le (a b : Piece) : Prop :=
  a.number.getD 0 < b.number.getD 0 ∨ a.number = b.number ∧
    (a.text < b.text ∨ a.text = b.text ∧ (a.percent → b.percent))

instance : DecidableRel Piece.le := fun _ _ => inferInstanceAs (Decidable (_ ∨ _))

/-- A number and no number are not compared. -/
def Sortable (pieces : List Piece) : Prop :=
  (∀ p ∈ pieces, p.number = none) ∨ ∀ p ∈ pieces, p.number ≠ none

instance (pieces : List Piece) : Decidable (Sortable pieces) :=
  inferInstanceAs (Decidable (_ ∨ _))

def addPiece (base : List Char) (piece : Piece) :
    List (List Char × List Piece) → List (List Char × List Piece)
  | [] => [(base, [piece])]
  | g :: groups =>
    if g.1 = base then (base, g.2 ++ [piece]) :: groups else g :: addPiece base piece groups

def hexDigit (c : Char) : Option ℕ :=
  if c.isDigit then some (c.toNat - 48)
  else if 'a' ≤ c ∧ c ≤ 'f' then some (c.toNat - 87)
  else if 'A' ≤ c ∧ c ≤ 'F' then some (c.toNat - 55)
  else none

/-- The percent-encoded octets, read in Latin-1. -/
def percentDecode : List Char → List Char
  | '%' :: b :: c :: s =>
    match hexDigit b, hexDigit c with
    | some high, some low => Char.ofNat (16 * high + low) :: percentDecode s
    | _, _ => '%' :: percentDecode (b :: c :: s)
  | a :: s => a :: percentDecode s
  | [] => []

def Piece.decode (p : Piece) : List Char := if p.percent then percentDecode p.text else p.text

def splitTick (s : List Char) : Option (List Char × List Char) :=
  match s.dropWhile (· ≠ Char.ofNat 39) with
  | [] => none
  | _ :: after => some (s.takeWhile (· ≠ Char.ofNat 39), after)

def groupValue (pieces : List Piece) : Value :=
  let text := (pieces.insertionSort Piece.le).flatMap Piece.decode
  if pieces.any (·.percent) then
    match splitTick text with
    | none => .encoded none none text
    | some (charset, rest) =>
      match splitTick rest with
      | none => .encoded none none text
      | some (language, value) => .encoded (some (quote charset)) (some (quote language)) value
  else .text text

def plainParams (ps : List (List Char × List Char)) : List (List Char × Value) :=
  ps.filterMap fun p =>
    if (continuation p.1).isSome then none else some (p.1, .text (unquote p.2))

def groups (ps : List (List Char × List Char)) : List (List Char × List Piece) :=
  ps.foldl (fun gs p =>
    match continuation p.1 with
    | none => gs
    | some (base, number) =>
      addPiece base ⟨number, unquote p.2, p.1.getLast? = some '*'⟩ gs) []

/-- The parameters, those of RFC 2231 last; `none` where their numbers cannot be sorted. -/
def decodeParams (ps : List (List Char × List Char)) : Option (List (List Char × Value)) :=
  if ∀ g ∈ groups ps, Sortable g.2 then
    some (plainParams ps ++ (groups ps).map fun g => (g.1, groupValue g.2))
  else none

def strip (blank : Char → Bool) (s : List Char) : List Char :=
  (s.dropWhile blank).rdropWhile blank

/-- What a reader knows of the characters: the blanks, the names in lower case, and a size that a
text does not gain by it. -/
structure Script where
  blank : Char → Bool
  lower : List Char → List Char
  size : Char → ℕ
  blank_space : blank ' ' = true
  not_blank : ∀ c : Char, 33 ≤ c.toNat → c.toNat ≤ 126 → blank c = false
  lower_lower : ∀ s, lower (lower s) = lower s
  lower_of_ascii : ∀ s, (∀ c ∈ s, c.toNat < 128 ∧ ¬ c.isUpper) → lower s = s
  strip_lower : ∀ s, strip blank (lower (strip blank s)) = lower (strip blank s)
  mem_of_mem_lower : ∀ s, ∀ c ∈ [';', '='], c ∈ lower s → c ∈ s
  size_eq_zero_iff : ∀ c, size c = 0 ↔ blank c
  size_lower_le : ∀ s, ((lower s).map size).sum ≤ (s.map size).sum

def textParam (p : List Char × List Char) : List Char × Value := (p.1, .text p.2)

def defaultType : List Char := "text/plain".toList

namespace Script
variable (script : Script)

/-- A parameter as it is written; its name is in lower case if it has a value. -/
def readParam (part : List Char) : List Char × List Char :=
  match part.dropWhile (· ≠ '=') with
  | [] => (strip script.blank part, [])
  | _ :: value =>
    (script.lower (strip script.blank (part.takeWhile (· ≠ '='))), strip script.blank value)

def contentType (header : List Char) : List Char :=
  let ctype := script.lower (strip script.blank (header.takeWhile (· ≠ ';')))
  if ctype.count '/' = 1 then ctype else defaultType

/-- The parameters of a header; what precedes the first semicolon is the first of them. -/
def params (header : List Char) : Option (List (List Char × Value)) :=
  match (parts .start header).map script.readParam with
  | [] => some []
  | p :: ps => (decodeParams ps).map fun decoded => (p.1, .text (unquote p.2)) :: decoded

/-- A parameter as a sender writes it after a semicolon. -/
def written (p : List Char × List Char) : List Char := ' ' :: (p.1 ++ '=' :: p.2)

/-- Alone, a parameter is read as it was meant. -/
def ReadsBack (p : List Char × List Char) : Prop :=
  (script.readParam (written p)).1 = p.1 ∧ unquote (script.readParam (written p)).2 = p.2 ∧
    continuation p.1 = none

instance (p : List Char × List Char) : Decidable (script.ReadsBack p) :=
  inferInstanceAs (Decidable (_ ∧ _ ∧ _))

end Script

section Read
variable {script : Script} {m : List Char} {ps : List (List Char × List Char)}

theorem Script.readParam_of_notMem {s : List Char} (h : '=' ∉ s) :
    script.readParam s = (strip script.blank s, []) := by
  have hall : ∀ c ∈ s, decide (c ≠ '=') = true :=
    fun c hc => decide_eq_true fun heq => h (heq ▸ hc)
  unfold Script.readParam
  rw [List.dropWhile_eq_nil_iff.mpr hall]

theorem Script.readParam_append {name value : List Char} (h : '=' ∉ name) :
    script.readParam (name ++ '=' :: value) =
      (script.lower (strip script.blank name), strip script.blank value) := by
  have hall : ∀ c ∈ name, decide (c ≠ '=') = true :=
    fun c hc => decide_eq_true fun heq => h (heq ▸ hc)
  unfold Script.readParam
  rw [List.dropWhile_append_of_pos hall, List.takeWhile_append_of_pos hall]
  simp

theorem Script.strip_space (script : Script) (s : List Char) :
    strip script.blank (' ' :: s) = strip script.blank s := by
  rw [strip, List.dropWhile_cons_of_pos script.blank_space, strip]

theorem Script.readParam_written {p : List Char × List Char} (h : '=' ∉ p.1) :
    script.readParam (Script.written p) =
      (script.lower (strip script.blank p.1), strip script.blank p.2) := by
  have hname : '=' ∉ ' ' :: p.1 := fun hmem => (List.mem_cons.mp hmem).elim (by decide) h
  rw [← script.strip_space]
  exact Script.readParam_append hname

theorem groups_eq_nil (h : ∀ p ∈ ps, continuation p.1 = none) : groups ps = [] := by
  have hstep : ∀ gs : List (List Char × List Piece), ps.foldl (fun gs p =>
      match continuation p.1 with
      | none => gs
      | some (base, number) =>
        addPiece base ⟨number, unquote p.2, p.1.getLast? = some '*'⟩ gs) gs = gs := by
    induction ps with
    | nil => exact fun gs => rfl
    | cons p ps ih =>
      intro gs
      rw [List.foldl_cons, h p List.mem_cons_self]
      exact ih (fun q hq => h q (List.mem_cons_of_mem p hq)) gs
  exact hstep []

theorem plainParams_eq_map (h : ∀ p ∈ ps, continuation p.1 = none) :
    plainParams ps = ps.map fun p => (p.1, .text (unquote p.2)) := by
  unfold plainParams
  rw [← List.filterMap_eq_map]
  refine List.filterMap_congr fun p hp => ?_
  simp [h p hp]

/-- Without names of RFC 2231, the parameters are unquoted one by one. -/
theorem decodeParams_of_plain (h : ∀ p ∈ ps, continuation p.1 = none) :
    decodeParams ps = some (ps.map fun p => (p.1, .text (unquote p.2))) := by
  unfold decodeParams
  rw [groups_eq_nil h, plainParams_eq_map h]
  simp

/-- The parameters of a header that splits into parts that each read back. -/
theorem Script.params_join (hsep : Separate m (ps.map Script.written))
    (hps : ∀ p ∈ ps, script.ReadsBack p) :
    script.params (join m (ps.map Script.written)) =
      some (((script.readParam m).1, .text (unquote (script.readParam m).2)) ::
        ps.map fun p => (p.1, .text p.2)) := by
  have hread : ∀ q ∈ (ps.map Script.written).map script.readParam, continuation q.1 = none := by
    intro q hq
    rw [List.map_map] at hq
    obtain ⟨p, hp, rfl⟩ := List.mem_map.mp hq
    exact (hps p hp).1 ▸ (hps p hp).2.2
  unfold Script.params
  rw [parts_join hsep, List.map_cons]
  dsimp only
  rw [decodeParams_of_plain hread, Option.map_some, List.map_map, List.map_map]
  congr 2
  refine List.map_congr_left fun p hp => ?_
  obtain ⟨hname, hvalue, -⟩ := hps p hp
  simp [hname, hvalue]

theorem takeWhile_append_cons {c : Char} {s t : List Char} (h : c ∉ s) :
    (s ++ c :: t).takeWhile (· ≠ c) = s := by
  have hall : ∀ d ∈ s, decide (d ≠ c) = true :=
    fun d hd => decide_eq_true fun heq => h (heq ▸ hd)
  rw [List.takeWhile_append_of_pos hall]
  simp

theorem takeWhile_join {qs : List (List Char)} (hm : ';' ∉ m) :
    (join m qs).takeWhile (· ≠ ';') = m := by
  cases qs with
  | nil =>
    have hall : ∀ c ∈ m, decide (c ≠ ';') = true :=
      fun c hc => decide_eq_true fun heq => hm (heq ▸ hc)
    simpa [join] using List.takeWhile_eq_self_iff.mpr hall
  | cons q qs => rw [join_cons, takeWhile_append_cons hm]

theorem strip_eq_self_of_not_blank {blank : Char → Bool} {s : List Char}
    (h : ∀ c ∈ s, blank c = false) : strip blank s = s := by
  have hdrop : s.dropWhile blank = s := by
    rw [List.dropWhile_eq_self_iff]
    intro hlt
    rw [h _ (List.getElem_mem hlt)]
    exact Bool.false_ne_true
  unfold strip
  rw [hdrop, List.rdropWhile_eq_self_iff]
  intro hs
  rw [h _ (List.getLast_mem hs)]
  exact Bool.false_ne_true

theorem strip_strip {blank : Char → Bool} (s : List Char) :
    strip blank (strip blank s) = strip blank s := by
  have hstart : strip blank s <+: s.dropWhile blank := List.rdropWhile_prefix _ _
  have hdrop : (strip blank s).dropWhile blank = strip blank s := by
    rw [List.dropWhile_eq_self_iff]
    intro hlt
    rw [hstart.getElem hlt]
    exact List.dropWhile_get_zero_not _ _ (hlt.trans_le hstart.length_le)
  unfold strip at hdrop ⊢
  rw [hdrop, List.rdropWhile_idempotent]

theorem Script.strip_of_visible (script : Script) {s : List Char}
    (h : ∀ c ∈ s, 33 ≤ c.toNat ∧ c.toNat ≤ 126) : strip script.blank s = s :=
  strip_eq_self_of_not_blank fun c hc => script.not_blank c (h c hc).1 (h c hc).2

/-- A media type is in lower case, without blanks around it, a semicolon or a second slash. -/
structure Script.MediaType (script : Script) (m : List Char) : Prop where
  lower_eq : script.lower m = m
  strip_eq : strip script.blank m = m
  semicolon : ';' ∉ m
  slash : m.count '/' = 1

theorem forall_mem_of_all {p : Char → Prop} [DecidablePred p] {s : List Char}
    (h : s.all fun c => p c) : ∀ c ∈ s, p c := by
  simpa using h

theorem Script.mediaType_of_visible (script : Script)
    (hm : ∀ c ∈ m, 33 ≤ c.toNat ∧ c.toNat ≤ 126 ∧ ¬ c.isUpper) (hsemicolon : ';' ∉ m)
    (hslash : m.count '/' = 1) : script.MediaType m where
  lower_eq := by
    refine script.lower_of_ascii m fun c hc => ?_
    obtain ⟨-, hle, hupper⟩ := hm c hc
    exact ⟨by omega, hupper⟩
  strip_eq := script.strip_of_visible fun c hc => ⟨(hm c hc).1, (hm c hc).2.1⟩
  semicolon := hsemicolon
  slash := hslash

theorem mem_of_mem_strip {blank : Char → Bool} {s : List Char} {c : Char}
    (h : c ∈ strip blank s) : c ∈ s :=
  (List.dropWhile_suffix blank).subset ((List.rdropWhile_prefix blank _).subset h)

theorem Script.mediaType_contentType (script : Script) (s : List Char) :
    script.MediaType (script.contentType s) := by
  unfold Script.contentType
  dsimp only
  split_ifs with hslash
  · refine ⟨script.lower_lower _, script.strip_lower _, fun hmem => ?_, hslash⟩
    have hbefore := mem_of_mem_strip (script.mem_of_mem_lower _ ';' (by decide) hmem)
    simpa using List.mem_takeWhile_imp hbefore
  · exact script.mediaType_of_visible (forall_mem_of_all (by decide)) (by decide) (by decide)

/-- The media type of a header that was written is read again. -/
theorem Script.MediaType.contentType_join (h : script.MediaType m) (qs : List (List Char)) :
    script.contentType (join m qs) = m := by
  unfold Script.contentType
  dsimp only
  rw [takeWhile_join h.semicolon, h.strip_eq, h.lower_eq, if_pos h.slash]

theorem visible_of_isWord {c : Char} (h : isWord c) : 33 ≤ c.toNat ∧ c.toNat ≤ 126 ∧ c ≠ '=' := by
  have hne : c.toNat ≠ 61 → c ≠ '=' := fun hn heq => hn (congrArg Char.toNat heq)
  simp only [isWord, Char.isAlphanum, Char.isAlpha, Char.isUpper, Char.isLower, Char.isDigit,
    Bool.or_eq_true, Bool.and_eq_true, decide_eq_true_eq, ge_iff_le, UInt32.le_iff_toNat_le] at h
  have hn : c.toNat = c.val.toNat := rfl
  rcases h with ((⟨h, h'⟩ | ⟨h, h'⟩) | ⟨h, h'⟩) | rfl
  · simp only [Char.reduceVal, UInt32.reduceToNat] at h h'
    exact ⟨by omega, by omega, hne (by omega)⟩
  · simp only [Char.reduceVal, UInt32.reduceToNat] at h h'
    exact ⟨by omega, by omega, hne (by omega)⟩
  · simp only [Char.reduceVal, UInt32.reduceToNat] at h h'
    exact ⟨by omega, by omega, hne (by omega)⟩
  · decide

def Script.Name (script : Script) (name : List Char) : Prop :=
  '=' ∉ name ∧ strip script.blank name = name

theorem Script.name_lower {name : List Char} (h : script.Name name) :
    '=' ∉ script.lower name ∧
      script.lower (strip script.blank (script.lower name)) = script.lower name := by
  have hstrip : strip script.blank (script.lower name) = script.lower name := by
    rw [← h.2, script.strip_lower]
  refine ⟨fun hmem => h.1 (script.mem_of_mem_lower name '=' (by decide) hmem), ?_⟩
  rw [hstrip, script.lower_lower]

theorem Script.name_readParam {part : List Char} (h : (script.readParam part).2 ≠ []) :
    script.Name (script.readParam part).1 := by
  by_cases hmem : '=' ∈ part
  · obtain ⟨before, after, rfl, hbefore⟩ := List.eq_append_cons_of_mem hmem
    rw [Script.readParam_append hbefore]
    have hname : '=' ∉ strip script.blank before := fun hmem => hbefore (mem_of_mem_strip hmem)
    exact ⟨fun hmem => hname (script.mem_of_mem_lower _ '=' (by decide) hmem), script.strip_lower _⟩
  · exact absurd (by rw [Script.readParam_of_notMem hmem]) h

theorem Script.name_of_isWord {name : List Char} (h : ∀ c ∈ name, isWord c) : script.Name name :=
  ⟨fun hmem => (visible_of_isWord (h _ hmem)).2.2 rfl, script.strip_of_visible fun c hc =>
    ⟨(visible_of_isWord (h c hc)).1, (visible_of_isWord (h c hc)).2.1⟩⟩

theorem isWord_of_continuation {name base : List Char} {number : Option ℕ}
    (h : continuation name = some (base, number)) : ∀ c ∈ base, isWord c := by
  unfold continuation at h
  have hall : ∀ c ∈ name.takeWhile isWord, isWord c = true := fun c hc => List.mem_takeWhile_imp hc
  split at h
  · next base' c rest hbase hrest =>
    have hbase : name.takeWhile isWord = base := by
      split at h <;> simp_all
    exact hbase ▸ hall
  · cases h

theorem mem_addPiece {base : List Char} {piece : Piece} {gs : List (List Char × List Piece)}
    {g : List Char × List Piece} (h : g ∈ addPiece base piece gs) :
    g.1 = base ∨ ∃ g' ∈ gs, g'.1 = g.1 := by
  induction gs with
  | nil => exact .inl (congrArg Prod.fst (List.mem_singleton.mp h))
  | cons a gs ih =>
    unfold addPiece at h
    split_ifs at h with ha
    · rcases List.mem_cons.mp h with rfl | h
      · exact .inl rfl
      · exact .inr ⟨g, List.mem_cons_of_mem a h, rfl⟩
    · rcases List.mem_cons.mp h with rfl | h
      · exact .inr ⟨g, List.mem_cons_self, rfl⟩
      · refine (ih h).imp_right fun ⟨g', hg', heq⟩ => ⟨g', List.mem_cons_of_mem a hg', heq⟩

theorem isWord_of_mem_groups {ps : List (List Char × List Char)} {g : List Char × List Piece}
    (h : g ∈ groups ps) : ∀ c ∈ g.1, isWord c := by
  induction ps using List.reverseRecOn generalizing g with
  | nil => cases h
  | append_singleton ps p ih =>
    unfold groups at h ih
    rw [List.foldl_append, List.foldl_cons, List.foldl_nil] at h
    cases hc : continuation p.1 with
    | none =>
      rw [hc] at h
      exact ih h
    | some c =>
      rw [hc] at h
      rcases mem_addPiece h with hbase | ⟨g', hg', hbase⟩
      · exact hbase ▸ isWord_of_continuation hc
      · exact hbase ▸ ih hg'

theorem unquote_ne_nil {s : List Char} (h : Value.text (unquote s) ≠ .text []) : s ≠ [] := by
  rintro rfl
  exact h rfl

theorem Script.name_of_params {s : List Char} {read : List (List Char × Value)}
    (h : script.params s = some read) : ∀ p ∈ read, p.2 ≠ .text [] → script.Name p.1 := by
  unfold Script.params at h
  split at h
  · obtain rfl := Option.some.inj h
    exact fun p hp => absurd hp List.not_mem_nil
  · next first rest hparts =>
    have hmem : ∀ p ∈ first :: rest, ∃ part, script.readParam part = p := by
      intro p hp
      rw [← hparts] at hp
      obtain ⟨part, -, heq⟩ := List.mem_map.mp hp
      exact ⟨part, heq⟩
    have hread : ∀ p ∈ first :: rest, Value.text (unquote p.2) ≠ .text [] → script.Name p.1 := by
      intro p hp hvalue
      obtain ⟨part, rfl⟩ := hmem p hp
      exact Script.name_readParam (unquote_ne_nil hvalue)
    obtain ⟨decoded, hdecoded, rfl⟩ := Option.map_eq_some_iff.mp h
    intro p hp hvalue
    rcases List.mem_cons.mp hp with rfl | hp
    · exact hread first List.mem_cons_self hvalue
    · unfold decodeParams at hdecoded
      split_ifs at hdecoded
      obtain rfl := Option.some.inj hdecoded
      rcases List.mem_append.mp hp with hp | hp
      · obtain ⟨q, hq, heq⟩ := List.mem_filterMap.mp hp
        split_ifs at heq
        obtain rfl := Option.some.inj heq
        exact hread q (List.mem_cons_of_mem first hq) hvalue
      · obtain ⟨g, hg, rfl⟩ := List.mem_map.mp hp
        exact Script.name_of_isWord (isWord_of_mem_groups hg)

end Read

end HeaderParams

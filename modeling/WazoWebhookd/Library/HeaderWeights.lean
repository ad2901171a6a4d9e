import Mathlib.Algebra.Order.BigOperators.Group.List
import Mathlib.Algebra.Order.Ring.Nat
import Mathlib.Data.List.Perm.Subperm
import WazoWebhookd.Library.HeaderParams

/-! How much of a header its parameters account for: one that gives back all the parameters it
was written with has each of them as a part. -/
namespace HeaderParams

section Sum
variable {α : Type*} {f g : α → ℕ} {l m : List α}

theorem sum_le_of_subset (hl : l.Nodup) (h : l ⊆ m) : (l.map f).sum ≤ (m.map f).sum := by
  obtain ⟨n, hperm, hsub⟩ := hl.subperm h
  calc (l.map f).sum = (n.map f).sum := (hperm.map f).sum_eq.symm
    _ ≤ (m.map f).sum := (hsub.map f).sum_le_sum fun _ _ => Nat.zero_le _

theorem mem_of_sum_le (hl : l.Nodup) (h : l ⊆ m) (hsum : (m.map f).sum ≤ (l.map f).sum) {a : α}
    (ha : a ∈ m) (hpos : 0 < f a) : a ∈ l := by
  classical
  by_contra hmissing
  have hcons : (a :: l).Nodup := List.nodup_cons.mpr ⟨hmissing, hl⟩
  have hle : ((a :: l).map f).sum ≤ (m.map f).sum :=
    sum_le_of_subset hcons (List.cons_subset.mpr ⟨ha, h⟩)
  rw [List.map_cons, List.sum_cons] at hle
  omega

theorem eq_of_sum_le (h : ∀ a ∈ l, f a ≤ g a) (hsum : (l.map g).sum ≤ (l.map f).sum) :
    ∀ a ∈ l, f a = g a := by
  intro a ha
  by_contra hne
  have hlt : (l.map f).sum < (l.map g).sum :=
    List.sum_lt_sum f g h ⟨a, ha, lt_of_le_of_ne (h a ha) hne⟩
  omega

end Sum

namespace Script
variable (script : Script)

def weight (s : List Char) : ℕ := (s.map script.size).sum

/-- What a part of a header weighs, with the semicolon before it. -/
def partWeight (s : List Char) : ℕ := script.size ';' + script.weight s

/-- The least that a parameter with this value weighs; without a value it does not count. -/
def textWeight (name value : List Char) : ℕ :=
  if value = [] then 0
  else script.size ';' + script.weight name + script.size '=' + script.weight value

def paramWeight (p : List Char × Value) : ℕ :=
  match p.2 with
  | .text value => script.textWeight p.1 value
  | .encoded .. => 0

def pieceWeight (p : List Char × List Char) : ℕ :=
  match continuation p.1 with
  | none => 0
  | some (base, _) => script.textWeight base (unquote p.2)

def plainWeight (p : List Char × List Char) : ℕ :=
  match continuation p.1 with
  | none => script.textWeight p.1 (unquote p.2)
  | some _ => 0

/-- What a part adds to the parameters that are read. -/
def share (p : List Char × List Char) : ℕ := script.plainWeight p + script.pieceWeight p

def groupWeight (g : List Char × List Piece) : ℕ :=
  (g.2.map fun p => script.textWeight g.1 p.text).sum

end Script

section Weight
variable {script : Script} {s t name : List Char}

@[simp] theorem weight_nil : script.weight [] = 0 := rfl

@[simp] theorem weight_cons (c : Char) : script.weight (c :: s) =
    script.size c + script.weight s := by
  simp [Script.weight]

@[simp] theorem weight_append : script.weight (s ++ t) = script.weight s + script.weight t := by
  simp [Script.weight]

theorem weight_le_of_sublist (h : s.Sublist t) : script.weight s ≤ script.weight t :=
  (h.map script.size).sum_le_sum fun _ _ => Nat.zero_le _

theorem weight_strip_le : script.weight (strip script.blank s) ≤ script.weight s :=
  weight_le_of_sublist
    ((List.rdropWhile_prefix _ _).sublist.trans (List.dropWhile_suffix _).sublist)

theorem unescape_sublist (c : Char) : ∀ s, (unescape c s).Sublist s
  | [] => .slnil
  | [a] => .refl _
  | a :: b :: s => by
    unfold unescape
    split_ifs with h
    · obtain ⟨-, rfl⟩ := h
      exact ((unescape_sublist b s).cons_cons b).cons a
    · exact (unescape_sublist c (b :: s)).cons_cons a

theorem unquote_sublist : (unquote s).Sublist s := by
  have hinner : s.tail.dropLast.Sublist s :=
    (List.dropLast_sublist _).trans (List.tail_sublist s)
  unfold unquote
  split_ifs
  · exact ((unescape_sublist _ _).trans (unescape_sublist _ _)).trans hinner
  · exact hinner
  · exact .refl s

theorem size_semicolon_pos (script : Script) : 0 < script.size ';' := by
  have hblank : script.blank ';' = false := script.not_blank ';' (by decide) (by decide)
  refine Nat.pos_of_ne_zero fun hzero => ?_
  rw [script.size_eq_zero_iff, hblank] at hzero
  exact Bool.false_ne_true hzero

theorem size_star_pos (script : Script) : 0 < script.size '*' := by
  have hblank : script.blank '*' = false := script.not_blank '*' (by decide) (by decide)
  refine Nat.pos_of_ne_zero fun hzero => ?_
  rw [script.size_eq_zero_iff, hblank] at hzero
  exact Bool.false_ne_true hzero

theorem textWeight_append_le : script.textWeight name (s ++ t) ≤
    script.textWeight name s + script.textWeight name t := by
  unfold Script.textWeight
  rw [weight_append]
  by_cases hs : s = []
  · simp [hs]
  · have hst : s ++ t ≠ [] := List.append_ne_nil_of_left_ne_nil hs t
    rw [if_neg hs, if_neg hst]
    split_ifs with ht
    · simp [ht]
    · omega

theorem textWeight_flatMap_le {α : Type*} (f : α → List Char) (l : List α) :
    script.textWeight name (l.flatMap f) ≤ (l.map fun a => script.textWeight name (f a)).sum := by
  induction l with
  | nil => simp [Script.textWeight]
  | cons a l ih =>
    rw [List.flatMap_cons, List.map_cons, List.sum_cons]
    exact textWeight_append_le.trans (Nat.add_le_add_left ih _)

/-- The value that is put together weighs no more than its pieces. -/
theorem paramWeight_groupValue_le (g : List Char × List Piece) :
    script.paramWeight (g.1, groupValue g.2) ≤ script.groupWeight g := by
  unfold groupValue
  dsimp only
  split_ifs with hpercent
  · split <;> (try split) <;> simp [Script.paramWeight]
  · have hdecode : ∀ p ∈ g.2.insertionSort Piece.le, p.decode = p.text := by
      intro p hp
      have hp := (List.mem_insertionSort _).mp hp
      have : p.percent = false := by
        by_contra h
        exact hpercent (List.any_eq_true.mpr ⟨p, hp, by simpa using h⟩)
      simp [Piece.decode, this]
    calc script.textWeight g.1 ((g.2.insertionSort Piece.le).flatMap Piece.decode)
        ≤ ((g.2.insertionSort Piece.le).map fun p => script.textWeight g.1 p.decode).sum :=
          textWeight_flatMap_le _ _
      _ = ((g.2.insertionSort Piece.le).map fun p => script.textWeight g.1 p.text).sum := by
          congr 1
          exact List.map_congr_left fun p hp => by rw [hdecode p hp]
      _ = script.groupWeight g := ((List.perm_insertionSort _ _).map _).sum_eq

theorem groupWeight_addPiece (base : List Char) (piece : Piece)
    (gs : List (List Char × List Piece)) :
    ((addPiece base piece gs).map script.groupWeight).sum =
      (gs.map script.groupWeight).sum + script.textWeight base piece.text := by
  induction gs with
  | nil => simp [addPiece, Script.groupWeight]
  | cons g gs ih =>
    unfold addPiece
    split_ifs with hbase
    · simp only [List.map_cons, List.sum_cons, Script.groupWeight, List.map_append,
        List.sum_append, List.map_nil, List.sum_nil, hbase]
      omega
    · rw [List.map_cons, List.sum_cons, ih, List.map_cons, List.sum_cons]
      omega

theorem groupWeight_groups (ps : List (List Char × List Char)) :
    ((groups ps).map script.groupWeight).sum = (ps.map script.pieceWeight).sum := by
  induction ps using List.reverseRecOn with
  | nil => rfl
  | append_singleton ps p ih =>
    unfold groups at ih ⊢
    rw [List.foldl_append, List.foldl_cons, List.foldl_nil, List.map_append, List.sum_append,
      List.map_singleton, List.sum_singleton, ← ih, Script.pieceWeight]
    cases continuation p.1 with
    | none => rfl
    | some c => exact groupWeight_addPiece _ _ _

theorem paramWeight_plainParams (ps : List (List Char × List Char)) :
    ((plainParams ps).map script.paramWeight).sum = (ps.map script.plainWeight).sum := by
  induction ps with
  | nil => rfl
  | cons p ps ih =>
    unfold plainParams at ih ⊢
    rw [List.filterMap_cons, List.map_cons, List.sum_cons, ← ih, Script.plainWeight]
    cases continuation p.1 with
    | none => rfl
    | some c => simp

/-- What is read weighs no more than the shares of the parts. -/
theorem paramWeight_decodeParams_le (script : Script) {ps : List (List Char × List Char)}
    {decoded : List (List Char × Value)} (h : decodeParams ps = some decoded) :
    (decoded.map script.paramWeight).sum ≤ (ps.map script.share).sum := by
  have hgroups : ((groups ps).map fun g => script.paramWeight (g.1, groupValue g.2)).sum ≤
      ((groups ps).map script.groupWeight).sum :=
    List.sum_le_sum fun g _ => paramWeight_groupValue_le g
  have hshare : (ps.map script.share).sum =
      (ps.map script.plainWeight).sum + (ps.map script.pieceWeight).sum := List.sum_map_add
  unfold decodeParams at h
  split_ifs at h
  obtain rfl := Option.some.inj h
  rw [List.map_append, List.sum_append, paramWeight_plainParams, List.map_map, hshare,
    ← groupWeight_groups]
  exact Nat.add_le_add_left hgroups _

theorem weight_base_le (script : Script) {base : List Char} {number : Option ℕ}
    (h : continuation name = some (base, number)) :
    script.weight base + script.size '*' ≤ script.weight name := by
  unfold continuation at h
  have hname : name.takeWhile isWord ++ name.dropWhile isWord = name :=
    List.takeWhile_append_dropWhile
  split at h
  · next base' c rest hbase hrest =>
    have hbase : name.takeWhile isWord = base := by
      split at h <;> simp_all
    rw [← hname, hbase, hrest, weight_append, weight_cons]
    omega
  · cases h

theorem share_cases (script : Script) (part : List Char) :
    (∃ before after, part = before ++ '=' :: after ∧ '=' ∉ before ∧
      continuation (script.lower (strip script.blank before)) = none ∧
      unquote (strip script.blank after) ≠ [] ∧
      script.share (script.readParam part) = script.textWeight
        (script.lower (strip script.blank before)) (unquote (strip script.blank after)) ∧
      script.share (script.readParam part) ≤ script.partWeight part) ∨
    script.share (script.readParam part) < script.partWeight part := by
  have hpos := size_semicolon_pos script
  by_cases hmem : '=' ∈ part
  · obtain ⟨before, after, rfl, hbefore⟩ := List.eq_append_cons_of_mem hmem
    have hname : script.weight (script.lower (strip script.blank before)) ≤
        script.weight before := (script.size_lower_le _).trans weight_strip_le
    have hvalue : script.weight (unquote (strip script.blank after)) ≤ script.weight after :=
      (weight_le_of_sublist unquote_sublist).trans weight_strip_le
    rw [Script.readParam_append hbefore]
    unfold Script.share Script.plainWeight Script.pieceWeight Script.partWeight
    dsimp only
    rw [weight_append, weight_cons]
    cases hcontinuation : continuation (script.lower (strip script.blank before)) with
    | none =>
      dsimp only
      unfold Script.textWeight
      split_ifs with hempty
      · right
        omega
      · exact .inl ⟨before, after, rfl, hbefore, hcontinuation, hempty, by simp [hempty],
          by omega⟩
    | some c =>
      right
      have hbase := weight_base_le script hcontinuation
      have hstar := size_star_pos script
      dsimp only
      unfold Script.textWeight
      split_ifs <;> omega
  · right
    rw [Script.readParam_of_notMem hmem]
    have hzero : ∀ name, script.textWeight name (unquote []) = 0 := fun name => rfl
    unfold Script.share Script.plainWeight Script.pieceWeight Script.partWeight
    dsimp only
    cases continuation (strip script.blank part) <;> simp [hzero] <;> omega

/-- A part that is read as a parameter, and weighs what it does when it is written. -/
def Reads (script : Script) (part : List Char) (p : List Char × List Char) : Prop :=
  ∃ before after, part = before ++ '=' :: after ∧ '=' ∉ before ∧
    script.lower (strip script.blank before) = p.1 ∧ unquote (strip script.blank after) = p.2 ∧
    continuation p.1 = none ∧ script.weight part = script.weight (Script.written p)

/-- After texts of one weight, a text goes on in the same way from the semicolon. -/
theorem append_inj_of_weight {u v : List Char} (h : s ++ u = t ++ v)
    (hweight : script.weight s = script.weight t) (hu : u = [] ∨ u.head? = some ';')
    (hv : v = [] ∨ v.head? = some ';') : s = t ∧ u = v := by
  have hnil : ∀ a w, (a ++ w = [] ∨ (a ++ w).head? = some ';') → script.weight a = 0 → a = [] := by
    intro a w haw hzero
    cases a with
    | nil => rfl
    | cons c a =>
      have hc : c = ';' := by simpa using haw
      have hpos := size_semicolon_pos script
      rw [weight_cons, hc] at hzero
      omega
  rcases List.append_eq_append_iff.mp h with ⟨a, rfl, rfl⟩ | ⟨a, rfl, rfl⟩
  · rw [weight_append] at hweight
    obtain rfl := hnil a v hu (by omega)
    exact ⟨(List.append_nil s).symm, rfl⟩
  · rw [weight_append] at hweight
    obtain rfl := hnil a u hv (by omega)
    exact ⟨List.append_nil t, rfl⟩

theorem flatMap_semicolon (parts : List (List Char)) :
    parts.flatMap (fun q => ';' :: q) = [] ∨
      (parts.flatMap fun q => ';' :: q).head? = some ';' := by
  cases parts with
  | nil => exact .inl rfl
  | cons q parts => exact .inr rfl

/-- The parts of what was written are the parameters, if each is read as one of them. -/
theorem parts_eq_written {all ps : List (List Char × List Char)} {parts : List (List Char)}
    (hall : (all.map (·.1)).Nodup)
    (hname : ∀ p ∈ all, '=' ∉ p.1 ∧ script.lower (strip script.blank p.1) = p.1) (hps : ps ⊆ all)
    (hparts : ∀ part ∈ parts, ∃ p ∈ all, Reads script part p)
    (hjoin : parts.flatMap (fun q => ';' :: q) =
      (ps.map Script.written).flatMap fun q => ';' :: q) : parts = ps.map Script.written := by
  induction ps generalizing parts with
  | nil =>
    cases parts with
    | nil => rfl
    | cons part parts => cases hjoin
  | cons p ps ih =>
    cases parts with
    | nil => cases hjoin
    | cons part parts =>
      rw [List.map_cons, List.flatMap_cons, List.flatMap_cons, List.cons_append,
        List.cons_append, List.cons_inj_right] at hjoin
      have hp := hps List.mem_cons_self
      obtain ⟨hequals, hlower⟩ := hname p hp
      obtain ⟨q, hq, before, after, rfl, hbefore, hq1, -, -, hweight⟩ :=
        hparts part List.mem_cons_self
      have hsame : before = ' ' :: p.1 := by
        have htake := congrArg (List.takeWhile (· ≠ '=')) hjoin
        have hspace : '=' ∉ ' ' :: p.1 :=
          fun hmem => (List.mem_cons.mp hmem).elim (by decide) hequals
        have hwritten : ∀ v, Script.written p ++ v = (' ' :: p.1) ++ '=' :: (p.2 ++ v) :=
          fun v => by simp [Script.written]
        rwa [List.append_assoc, List.cons_append, takeWhile_append_cons hbefore, hwritten,
          takeWhile_append_cons hspace] at htake
      have hqp : q = p := by
        refine List.inj_on_of_nodup_map hall hq hp ?_
        rw [← hq1, hsame, script.strip_space, hlower]
      obtain ⟨hpart, hrest⟩ := append_inj_of_weight hjoin (hqp ▸ hweight)
        (flatMap_semicolon parts) (flatMap_semicolon _)
      rw [List.map_cons, hpart, ih (List.subset_of_cons_subset hps)
        (fun r hr => hparts r (List.mem_cons_of_mem _ hr)) hrest]

theorem weight_flatMap (parts : List (List Char)) :
    script.weight (parts.flatMap fun q => ';' :: q) = (parts.map script.partWeight).sum := by
  induction parts with
  | nil => rfl
  | cons q parts ih =>
    rw [List.flatMap_cons, weight_append, ih, List.map_cons, List.sum_cons, weight_cons,
      Script.partWeight]

theorem paramWeight_textParam (script : Script) {p : List Char × List Char} (h : p.2 ≠ []) :
    script.paramWeight (textParam p) = script.partWeight (Script.written p) := by
  have hspace : script.size ' ' = 0 := (script.size_eq_zero_iff ' ').mpr script.blank_space
  unfold Script.paramWeight textParam Script.textWeight Script.partWeight Script.written
  dsimp only
  rw [if_neg h, weight_cons, weight_append, weight_cons, hspace]
  omega

theorem paramWeight_lower_le (p : List Char × Value) :
    script.paramWeight (script.lower p.1, p.2) ≤ script.paramWeight p := by
  have hname : script.weight (script.lower p.1) ≤ script.weight p.1 := script.size_lower_le p.1
  obtain ⟨name, value⟩ := p
  cases value with
  | encoded charset language value => exact le_rfl
  | text value =>
    unfold Script.paramWeight Script.textWeight
    dsimp only at hname ⊢
    split_ifs <;> omega

theorem paramWeight_textParam_pos (script : Script) {p : List Char × List Char} (h : p.2 ≠ []) :
    0 < script.paramWeight (textParam p) := by
  have hpos := size_semicolon_pos script
  unfold Script.paramWeight textParam Script.textWeight
  dsimp only
  rw [if_neg h]
  omega

theorem plain_of_share {part : List Char}
    (h : script.share (script.readParam part) = script.partWeight part) :
    ∃ before after, part = before ++ '=' :: after ∧ '=' ∉ before ∧
      continuation (script.lower (strip script.blank before)) = none ∧
      unquote (strip script.blank after) ≠ [] ∧ script.partWeight part = script.textWeight
        (script.lower (strip script.blank before)) (unquote (strip script.blank after)) := by
  rcases share_cases script part with ⟨b, a, hb, hno, hc, ha, hs, -⟩ | hlt
  · exact ⟨b, a, hb, hno, hc, ha, h.symm.trans hs⟩
  · exact absurd h hlt.ne

/-- Where all the parameters that were written are read again, no part loses any weight, and
nothing else is read. -/
theorem share_of_subset {ps : List (List Char × List Char)} {parts : List (List Char)}
    {decoded : List (List Char × Value)} (hps : (ps.map textParam).Nodup)
    (hvalue : ∀ p ∈ ps, p.2 ≠ [])
    (hjoin : parts.flatMap (fun q => ';' :: q) =
      (ps.map Script.written).flatMap fun q => ';' :: q)
    (hdecode : decodeParams (parts.map script.readParam) = some decoded)
    (hread : ps.map textParam ⊆ decoded.map fun p => (script.lower p.1, p.2)) :
    (∀ part ∈ parts, script.share (script.readParam part) = script.partWeight part) ∧
      ((decoded.map fun p => (script.lower p.1, p.2)).map script.paramWeight).sum ≤
        ((ps.map textParam).map script.paramWeight).sum := by
  have hlower : ((decoded.map fun p => (script.lower p.1, p.2)).map script.paramWeight).sum ≤
      (decoded.map script.paramWeight).sum := by
    rw [List.map_map]
    exact List.sum_le_sum fun p _ => paramWeight_lower_le p
  have hshares : (decoded.map script.paramWeight).sum ≤
      (parts.map fun part => script.share (script.readParam part)).sum := by
    have h := paramWeight_decodeParams_le script hdecode
    rwa [List.map_map] at h
  have hparts : (parts.map script.partWeight).sum =
      ((ps.map textParam).map script.paramWeight).sum := by
    rw [← weight_flatMap, hjoin, weight_flatMap, List.map_map, List.map_map]
    congr 1
    exact List.map_congr_left fun p hp => (paramWeight_textParam script (hvalue p hp)).symm
  have hwritten : ((ps.map textParam).map script.paramWeight).sum ≤
      ((decoded.map fun p => (script.lower p.1, p.2)).map script.paramWeight).sum :=
    sum_le_of_subset hps hread
  have hle : ∀ part ∈ parts, script.share (script.readParam part) ≤ script.partWeight part := by
    intro part _
    rcases share_cases script part with ⟨_, _, -, -, -, -, -, h⟩ | h
    · exact h
    · exact h.le
  have hsum : (parts.map fun part => script.share (script.readParam part)).sum ≤
      (parts.map script.partWeight).sum := List.sum_le_sum hle
  exact ⟨eq_of_sum_le hle (by omega), by omega⟩

theorem reads_of_subset {ps : List (List Char × List Char)} {parts : List (List Char)}
    {decoded : List (List Char × Value)} (hps : (ps.map (·.1)).Nodup) (hvalue : ∀ p ∈ ps, p.2 ≠ [])
    (hjoin : parts.flatMap (fun q => ';' :: q) =
      (ps.map Script.written).flatMap fun q => ';' :: q)
    (hdecode : decodeParams (parts.map script.readParam) = some decoded)
    (hread : ps.map textParam ⊆ decoded.map fun p => (script.lower p.1, p.2)) :
    ∀ part ∈ parts, ∃ p ∈ ps, Reads script part p := by
  have hnodup : (ps.map textParam).Nodup := by
    refine List.Nodup.of_map (·.1) ?_
    rw [List.map_map]
    exact hps
  obtain ⟨heq, hsum⟩ := share_of_subset hnodup hvalue hjoin hdecode hread
  have hdecoded : decoded = (parts.map script.readParam).map
      fun p => (p.1, .text (unquote p.2)) := by
    refine Option.some.inj (hdecode.symm.trans (decodeParams_of_plain fun p hp => ?_))
    obtain ⟨part, hpart, rfl⟩ := List.mem_map.mp hp
    obtain ⟨before, after, rfl, hbefore, hcontinuation, -⟩ := plain_of_share (heq part hpart)
    rw [Script.readParam_append hbefore]
    exact hcontinuation
  intro part hpart
  obtain ⟨before, after, rfl, hbefore, hcontinuation, hafter, hweight⟩ :=
    plain_of_share (heq part hpart)
  have hmem : textParam (script.lower (strip script.blank before),
      unquote (strip script.blank after)) ∈ decoded.map fun p => (script.lower p.1, p.2) := by
    rw [hdecoded, List.map_map, List.map_map]
    refine List.mem_map.mpr ⟨_, hpart, ?_⟩
    simp only [Function.comp_apply, Script.readParam_append hbefore, script.lower_lower, textParam]
  have hpos := paramWeight_textParam_pos script
    (p := (script.lower (strip script.blank before), unquote (strip script.blank after))) hafter
  obtain ⟨p, hp, heqp⟩ := List.mem_map.mp (mem_of_sum_le hnodup hread hsum hmem hpos)
  obtain ⟨hname, hvaluep⟩ := Prod.mk.inj heqp
  have hvaluep := Value.text.inj hvaluep
  refine ⟨p, hp, before, after, rfl, hbefore, hname.symm, hvaluep.symm, hname ▸ hcontinuation, ?_⟩
  have hpart := paramWeight_textParam script (hvalue p hp)
  rw [heqp] at hpart
  have : script.partWeight (before ++ '=' :: after) = script.partWeight (Script.written p) :=
    hweight.trans hpart
  unfold Script.partWeight at this
  omega

/-- A header that gives back all that was written has the parameters as its parts. -/
theorem written_of_subset {ps : List (List Char × List Char)} {parts : List (List Char)}
    {decoded : List (List Char × Value)} (hps : (ps.map (·.1)).Nodup)
    (hname : ∀ p ∈ ps, '=' ∉ p.1 ∧ script.lower (strip script.blank p.1) = p.1)
    (hvalue : ∀ p ∈ ps, p.2 ≠ [])
    (hjoin : parts.flatMap (fun q => ';' :: q) =
      (ps.map Script.written).flatMap fun q => ';' :: q)
    (hdecode : decodeParams (parts.map script.readParam) = some decoded)
    (hread : ps.map textParam ⊆ decoded.map fun p => (script.lower p.1, p.2)) :
    parts = ps.map Script.written ∧ ∀ p ∈ ps, script.ReadsBack p := by
  have hreads := reads_of_subset hps hvalue hjoin hdecode hread
  have hparts := parts_eq_written hps hname (List.Subset.refl ps) hreads hjoin
  refine ⟨hparts, fun p hp => ?_⟩
  obtain ⟨hequals, hlower⟩ := hname p hp
  obtain ⟨q, hq, before, after, hwritten, hbefore, hq1, hq2, hcontinuation, -⟩ :=
    hreads (Script.written p) (hparts ▸ List.mem_map_of_mem hp)
  have hpair : script.readParam (Script.written p) =
      (script.lower (strip script.blank before), strip script.blank after) := by
    rw [hwritten, Script.readParam_append hbefore]
  have hnames : q.1 = p.1 := by
    rw [Script.readParam_written hequals, hlower] at hpair
    exact hq1.symm.trans (congrArg Prod.fst hpair).symm
  obtain rfl := List.inj_on_of_nodup_map hps hq hp hnames
  unfold Script.ReadsBack
  rw [hpair]
  exact ⟨hq1, hq2, hcontinuation⟩

end Weight

end HeaderParams

import Mathlib.Data.List.Basic
import Mathlib.Data.List.TakeWhile
import Mathlib.Data.List.DropRight
import WazoWebhookd.Library.Failing

/-! The host of a url, as `urllib.parse` finds it: the scheme, the authority behind the two
slashes, the checks of it, and its parts. -/
namespace UrlHost

/-- What the reading takes from the tables of Unicode and from `ipaddress`. -/
structure Tables where
  lower : List Char → List Char
  normalize : List Char → List Char
  checkBracketedHost : List Char → Except String Unit
  lower_ascii : ∀ s, (∀ c ∈ s, c.toNat < 128) → lower s = s.map Char.toLower
  lower_ne_nil : ∀ s, s ≠ [] → lower s ≠ []

def isC0OrSpace (c : Char) : Bool := c.toNat ≤ 32

def isSafe (c : Char) : Bool := c ∉ ['\t', '\r', '\n']

/-- What is stripped and removed before a url is split. -/
def clean (url : List Char) : List Char :=
  (url.dropWhile isC0OrSpace).filter isSafe

def isSchemeChar (c : Char) : Bool := c.isAlphanum ∨ c ∈ ['+', '-', '.']

/-- The scheme, if there is one, and the rest. -/
def splitScheme (url : List Char) : List Char × List Char :=
  let scheme := url.takeWhile (· ≠ ':')
  if ':' ∈ url ∧ (url.head?.any Char.isAlpha) ∧ scheme.all isSchemeChar then
    (scheme.map Char.toLower, url.drop (scheme.length + 1))
  else ([], url)

/-- The authority, which ends at the first of the delimiters. -/
def splitNetloc (delims : List Char) : List Char → List Char
  | '/' :: '/' :: rest => rest.takeWhile (· ∉ delims)
  | _ => []

def afterLast (c : Char) (s : List Char) : List Char := s.rtakeWhile (· ≠ c)

def after (c : Char) (s : List Char) : List Char := (s.dropWhile (· ≠ c)).tail

def before (c : Char) (s : List Char) : List Char := s.takeWhile (· ≠ c)

def hostInfo (netloc : List Char) : List Char :=
  let hostinfo := afterLast '@' netloc
  if '[' ∈ hostinfo then before ']' (after '[' hostinfo) else before ':' hostinfo

section Urlparse
variable (t : Tables)

def checkBrackets (netloc : List Char) : Except String Unit :=
  if ('[' ∈ netloc ∧ ']' ∉ netloc) ∨ (']' ∈ netloc ∧ '[' ∉ netloc) then
    throw "Invalid IPv6 URL"
  else if '[' ∈ netloc ∧ ']' ∈ netloc then
    t.checkBracketedHost (before ']' (after '[' netloc))
  else pure ()

/-- Characters that expand to a delimiter are refused. -/
def checkNetloc (netloc : List Char) : Except String Unit :=
  if netloc = [] ∨ netloc.all (fun c => c.toNat < 128) then pure ()
  else
    let n := netloc.filter (· ∉ ['@', ':', '#', '?'])
    if n = t.normalize n then pure ()
    else if ['/', '?', '#', '@', ':'].any (· ∈ t.normalize n) then
      throw (String.ofList ("netloc '".toList ++ netloc ++
        "' contains invalid characters under NFKC normalization".toList))
    else pure ()

/-- The zone of a scoped address keeps its case. -/
def lowerHost (host : List Char) : List Char :=
  t.lower (host.takeWhile (· ≠ '%')) ++ host.dropWhile (· ≠ '%')

def hostname (netloc : List Char) : Option (List Char) :=
  if hostInfo netloc = [] then none else some (lowerHost t (hostInfo netloc))

/-- `urlparse(url).hostname`. -/
def urlHost (url : List Char) : Except String (Option (List Char)) := do
  let netloc := splitNetloc ['/', '?', '#'] (splitScheme (clean url)).2
  checkBrackets t netloc
  checkNetloc t netloc
  pure (hostname t netloc)

end Urlparse

def isHostChar (c : Char) : Bool := c.isAlphanum ∨ c ∈ ['-', '.', '_', '~']

def isUserChar (c : Char) : Bool :=
  isHostChar c ∨ c ∈ ['!', '$', '&', '(', ')', '*', '+', ',', ';', '=', ':']

/-- A url of the web in whose authority two readers find the same host. -/
structure PlainUrl where
  scheme : List Char
  user : Option (List Char)
  host : List Char
  port : Option (List Char)
  rest : List Char
  scheme_http : scheme ∈ [['h', 't', 't', 'p'], ['h', 't', 't', 'p', 's']]
  user_plain : ∀ s ∈ user, ∀ c ∈ s, isUserChar c
  host_plain : ∀ c ∈ host, isHostChar c
  host_head : ∃ c ∈ host.head?, c ≠ '.'
  port_digits : ∀ s ∈ port, s.length ≤ 4 ∧ ∀ c ∈ s, c.isDigit
  rest_head : ∀ c ∈ rest.head?, c ∈ ['/', '?', '#']

namespace PlainUrl

def hostPort (u : PlainUrl) : List Char := u.host ++ u.port.elim [] (':' :: ·)

def authority (u : PlainUrl) : List Char := u.user.elim [] (· ++ ['@']) ++ u.hostPort

def text (u : PlainUrl) : List Char :=
  u.scheme ++ ':' :: '/' :: '/' :: (u.authority ++ u.rest)

end PlainUrl

section Characters
variable {c : Char}

theorem isAscii_of_isAlphanum (h : c.isAlphanum) : c.toNat < 128 := by
  have hval : c.toNat = c.val.toNat := rfl
  unfold Char.isAlphanum Char.isAlpha Char.isUpper Char.isLower Char.isDigit at h
  grind [UInt32.le_iff_toNat_le]

theorem isAscii_of_isHostChar (h : isHostChar c) : c.toNat < 128 := by
  simp only [isHostChar, decide_eq_true_eq] at h
  obtain h | h := h
  · exact isAscii_of_isAlphanum h
  · have hall : ∀ d ∈ ['-', '.', '_', '~'], d.toNat < 128 :=
      List.forall_iff_forall_mem.mp (by decide)
    exact hall c h

theorem isAscii_of_isUserChar (h : isUserChar c) : c.toNat < 128 := by
  simp only [isUserChar, decide_eq_true_eq] at h
  obtain h | h := h
  · exact isAscii_of_isHostChar h
  · have hall : ∀ d ∈ ['!', '$', '&', '(', ')', '*', '+', ',', ';', '=', ':'], d.toNat < 128 :=
      List.forall_iff_forall_mem.mp (by decide)
    exact hall c h

theorem isUserChar_of_isHostChar (h : isHostChar c) : isUserChar c := by
  simp [isUserChar, h]

theorem isHostChar_of_isDigit (h : c.isDigit) : isHostChar c := by
  simp [isHostChar, Char.isAlphanum, h]

end Characters

section Chunks
variable {p : Char → Bool} {c : Char} {s t : List Char}

theorem takeWhile_append_of_head (hs : ∀ c ∈ s, p c) (ht : ∀ c ∈ t.head?, ¬ p c) :
    (s ++ t).takeWhile p = s := by
  rw [List.takeWhile_append_of_pos hs]
  cases t with
  | nil => simp
  | cons c t => rw [List.takeWhile_cons_of_neg (ht c rfl), List.append_nil]

theorem afterLast_of_notMem (h : c ∉ s) : afterLast c s = s := by
  rw [afterLast, List.rtakeWhile_eq_self_iff]
  intro d hd
  exact decide_eq_true fun hdc => h (hdc ▸ hd)

theorem afterLast_append_cons (h : c ∉ t) : afterLast c (s ++ c :: t) = t := by
  have hrev : ∀ d ∈ t.reverse, decide (d ≠ c) = true := fun d hd =>
    decide_eq_true fun hdc => h (hdc ▸ List.mem_reverse.mp hd)
  rw [afterLast, List.rtakeWhile, List.reverse_append, List.reverse_cons, List.append_assoc,
    List.singleton_append, takeWhile_append_of_head hrev (by simp), List.reverse_reverse]

theorem splitNetloc_append {delims : List Char} (hs : ∀ c ∈ s, c ∉ delims)
    (ht : ∀ c ∈ t.head?, c ∈ delims) : splitNetloc delims ('/' :: '/' :: (s ++ t)) = s :=
  takeWhile_append_of_head (fun c hc => decide_eq_true (hs c hc))
    fun c hc => by simpa using ht c hc

end Chunks

namespace PlainUrl
variable (u : PlainUrl)

theorem mem_hostPort {c : Char} (h : c ∈ u.hostPort) : isHostChar c ∨ c = ':' := by
  rw [hostPort, List.mem_append] at h
  obtain h | h := h
  · exact .inl (u.host_plain c h)
  · cases hport : u.port with
    | none => simp [hport] at h
    | some port =>
      rw [hport, Option.elim_some, List.mem_cons] at h
      exact h.symm.imp_left fun h => isHostChar_of_isDigit ((u.port_digits _ hport).2 c h)

theorem mem_authority {c : Char} (h : c ∈ u.authority) : isUserChar c ∨ c = '@' := by
  rw [authority, List.mem_append] at h
  obtain h | h := h
  · cases huser : u.user with
    | none => simp [huser] at h
    | some user =>
      rw [huser, Option.elim_some, List.mem_append, List.mem_singleton] at h
      exact h.imp_left (u.user_plain _ huser c)
  · refine .inl ((u.mem_hostPort h).elim isUserChar_of_isHostChar ?_)
    rintro rfl
    rfl

theorem notMem_authority {c : Char} (huser : ¬ isUserChar c) (hat : c ≠ '@') :
    c ∉ u.authority :=
  fun h => (u.mem_authority h).elim huser hat

theorem isAscii_authority {c : Char} (h : c ∈ u.authority) : c.toNat < 128 := by
  obtain h | rfl := u.mem_authority h
  · exact isAscii_of_isUserChar h
  · decide

theorem host_ne_nil : u.host ≠ [] := by
  obtain ⟨c, hc, -⟩ := u.host_head
  rintro hnil
  rw [hnil] at hc
  cases hc

theorem hostInfo_authority : hostInfo u.authority = u.host := by
  have hat : '@' ∉ u.hostPort := fun h => by simpa [isHostChar] using u.mem_hostPort h
  have hlast : afterLast '@' u.authority = u.hostPort := by
    rw [authority]
    cases u.user with
    | none => exact afterLast_of_notMem hat
    | some user =>
      rw [Option.elim_some, List.append_assoc, List.singleton_append, afterLast_append_cons hat]
  have hopen : '[' ∉ u.hostPort := fun h => by simpa [isHostChar] using u.mem_hostPort h
  rw [hostInfo, hlast, if_neg hopen, before, hostPort]
  refine takeWhile_append_of_head (fun c hc => decide_eq_true ?_) ?_
  · rintro rfl
    exact absurd (u.host_plain _ hc) (by decide)
  · cases u.port <;> simp

end PlainUrl

section Reading
variable (t : Tables) (u : PlainUrl)

theorem checkBrackets_authority : checkBrackets t u.authority = .ok () := by
  have hopen : '[' ∉ u.authority := u.notMem_authority (by decide) (by decide)
  have hclose : ']' ∉ u.authority := u.notMem_authority (by decide) (by decide)
  rw [checkBrackets, if_neg (by simp [hopen, hclose]), if_neg (by simp [hopen])]
  rfl

theorem checkNetloc_authority : checkNetloc t u.authority = .ok () :=
  if_pos (.inr (List.all_eq_true.mpr fun _ hc => decide_eq_true (u.isAscii_authority hc)))

theorem lowerHost_host : lowerHost t u.host = u.host.map Char.toLower := by
  have hpercent : ∀ c ∈ u.host, decide (c ≠ '%') = true := by
    intro c hc
    refine decide_eq_true ?_
    rintro rfl
    exact absurd (u.host_plain _ hc) (by decide)
  rw [lowerHost, List.takeWhile_eq_self_iff.mpr hpercent, List.dropWhile_eq_nil_iff.mpr hpercent,
    List.append_nil, t.lower_ascii _ fun c hc => isAscii_of_isHostChar (u.host_plain c hc)]

theorem lowerHost_ne_nil {host : List Char} (h : host ≠ []) : lowerHost t host ≠ [] := by
  rw [lowerHost, ne_eq, List.append_eq_nil_iff, not_and]
  intro hlower hzone
  have hstart : host.takeWhile (· ≠ '%') = [] := by
    by_contra hne
    exact t.lower_ne_nil _ hne hlower
  have hhost := List.takeWhile_append_dropWhile (p := (· ≠ '%')) (l := host)
  rw [hstart, hzone] at hhost
  exact h hhost.symm

theorem urlHost_ne_nil (url : List Char) : urlHost t url ≠ .ok (some []) := by
  intro h
  obtain ⟨-, -, h⟩ := Except.exists_of_bind_eq_ok h
  obtain ⟨-, -, h⟩ := Except.exists_of_bind_eq_ok h
  have hnil : hostname t _ = some [] := Except.ok.inj h
  rw [hostname] at hnil
  split at hnil
  · cases hnil
  · next hne => exact lowerHost_ne_nil t hne (Option.some.inj hnil)

theorem hostname_authority :
    hostname t u.authority = some (u.host.map Char.toLower) := by
  rw [hostname, u.hostInfo_authority, if_neg u.host_ne_nil, lowerHost_host]

theorem splitScheme_http {rest : List Char} :
    splitScheme (u.scheme ++ ':' :: rest) = (u.scheme, rest) := by
  obtain h | h : u.scheme = _ ∨ u.scheme = _ := by simpa using u.scheme_http
  all_goals rw [h]; rfl

theorem clean_text {space : List Char} (hspace : ∀ c ∈ space, isC0OrSpace c) :
    clean (space ++ u.text) =
      u.scheme ++ ':' :: '/' :: '/' :: (u.authority ++ u.rest.filter isSafe) := by
  have hauthority : u.authority.filter isSafe = u.authority := by
    rw [List.filter_eq_self]
    intro c hc
    have huser : ∀ d ∈ ['\t', '\r', '\n'], ¬ isUserChar d ∧ d ≠ '@' :=
      List.forall_iff_forall_mem.mp (by decide)
    exact decide_eq_true fun hd => u.notMem_authority (huser c hd).1 (huser c hd).2 hc
  have hsafe : ∀ c ∈ [':', '/', 'h', 't', 'p', 's'], isSafe c = true :=
    List.forall_iff_forall_mem.mp (by decide)
  have hhead : ¬ isC0OrSpace 'h' := by decide
  rw [clean, List.dropWhile_append_of_pos hspace, PlainUrl.text]
  obtain h | h : u.scheme = _ ∨ u.scheme = _ := by simpa using u.scheme_http
  all_goals
    rw [h]
    simp [hhead, hsafe, hauthority]

/-- The characters before a plain url that `urlparse` strips change nothing. -/
theorem urlHost_text {space : List Char} (hspace : ∀ c ∈ space, isC0OrSpace c) :
    urlHost t (space ++ u.text) = .ok (some (u.host.map Char.toLower)) := by
  have hrest : ∀ c ∈ (u.rest.filter isSafe).head?, c ∈ ['/', '?', '#'] := by
    intro c hc
    cases hu : u.rest with
    | nil => simp [hu] at hc
    | cons d rest =>
      have hd : d ∈ ['/', '?', '#'] := u.rest_head d (by simp [hu])
      have hsafe : ∀ d ∈ ['/', '?', '#'], isSafe d = true :=
        List.forall_iff_forall_mem.mp (by decide)
      rw [hu, List.filter_cons_of_pos (hsafe d hd)] at hc
      cases hc
      exact hd
  have hdelims : ∀ c ∈ u.authority, c ∉ ['/', '?', '#'] := by
    intro c hc hdelim
    have huser : ∀ d ∈ ['/', '?', '#'], ¬ isUserChar d ∧ d ≠ '@' :=
      List.forall_iff_forall_mem.mp (by decide)
    exact u.notMem_authority (huser c hdelim).1 (huser c hdelim).2 hc
  have hnetloc : splitNetloc ['/', '?', '#'] (splitScheme (clean (space ++ u.text))).2 =
      u.authority := by
    rw [clean_text u hspace, splitScheme_http, splitNetloc_append hdelims hrest]
  simp only [urlHost, hnetloc, checkBrackets_authority, checkNetloc_authority,
    hostname_authority]
  rfl

/-- No host is read behind any other character. -/
theorem urlHost_nonAscii {space rest : List Char} {c : Char}
    (hspace : ∀ c ∈ space, isC0OrSpace c) (hc : 128 ≤ c.toNat) :
    urlHost t (space ++ c :: rest) = .ok none := by
  have hclean : ∃ rest', clean (space ++ c :: rest) = c :: rest' := by
    have hdrop : ¬ isC0OrSpace c := by simp [isC0OrSpace]; omega
    have hsafe : isSafe c = true := by
      have hlow : ∀ d ∈ ['\t', '\r', '\n'], d.toNat < 128 :=
        List.forall_iff_forall_mem.mp (by decide)
      exact decide_eq_true fun hd => absurd (hlow c hd) (by omega)
    rw [clean, List.dropWhile_append_of_pos hspace, List.dropWhile_cons_of_neg hdrop,
      List.filter_cons_of_pos hsafe]
    exact ⟨_, rfl⟩
  obtain ⟨rest', hclean⟩ := hclean
  have halpha : ¬ c.isAlpha := by
    intro h
    have := isAscii_of_isAlphanum (c := c) (by simp [Char.isAlphanum, h])
    omega
  have hscheme : splitScheme (c :: rest') = ([], c :: rest') := by
    simp [splitScheme, halpha]
  have hslash : c ≠ '/' := by
    rintro rfl
    revert hc
    decide
  have hnetloc : splitNetloc ['/', '?', '#'] (c :: rest') = [] := by
    rw [splitNetloc]
    rintro rest ⟨⟩
    exact hslash rfl
  simp only [urlHost, hclean, hscheme, hnetloc]
  rfl

end Reading

/-- A reading by other delimiters, of the urls of the web only. -/
def readHost (delims url : List Char) : Option (List Char) :=
  let (scheme, rest) := splitScheme url
  let host := hostInfo (splitNetloc delims rest)
  if (scheme = ['h', 't', 't', 'p'] ∨ scheme = ['h', 't', 't', 'p', 's']) ∧ host ≠ [] then
    some (host.map Char.toLower)
  else none

theorem readHost_text {delims : List Char} (hdelims : ∀ c ∈ ['/', '?', '#'], c ∈ delims)
    (huser : ∀ c ∈ delims, ¬ isUserChar c ∧ c ≠ '@') (u : PlainUrl) :
    readHost delims u.text = some (u.host.map Char.toLower) := by
  have hauthority : ∀ c ∈ u.authority, c ∉ delims := fun c hc hdelim =>
    u.notMem_authority (huser c hdelim).1 (huser c hdelim).2 hc
  have hrest : ∀ c ∈ u.rest.head?, c ∈ delims := fun c hc => hdelims c (u.rest_head c hc)
  simp only [readHost, PlainUrl.text, splitScheme_http, splitNetloc_append hauthority hrest,
    u.hostInfo_authority]
  have hscheme := List.mem_pair.mp u.scheme_http
  exact if_pos ⟨hscheme, u.host_ne_nil⟩

end UrlHost

import WazoWebhookd.Hook.HttpService
import WazoWebhookd.Library.UrlHost

/-! The hosts to which the request of a user's subscription connects, against the check that
keeps it from those that listen on the loopback addresses. -/
namespace WazoWebhookd
open HttpService UrlHost

/-- `str.isspace` of a character. -/
def isSpace (c : Char) : Bool :=
  (9 ≤ c.toNat ∧ c.toNat ≤ 13) ∨ (28 ≤ c.toNat ∧ c.toNat ≤ 32) ∨ c.toNat = 0x85 ∨
    c.toNat = 0xA0 ∨ c.toNat = 0x1680 ∨ (0x2000 ≤ c.toNat ∧ c.toNat ≤ 0x200A) ∨
    c.toNat = 0x2028 ∨ c.toNat = 0x2029 ∨ c.toNat = 0x202F ∨ c.toNat = 0x205F ∨ c.toNat = 0x3000

def lstrip (url : String) : String := String.ofList (url.toList.dropWhile isSpace)

/-- `urlparse(url).hostname`. -/
def urlHostname (tables : Tables) (url : String) : Except String (Option String) :=
  (urlHost tables url.toList).map (Option.map String.ofList)

def HttpLibraries.ReadsUrls (libs : HttpLibraries) (tables : Tables) : Prop :=
  ∀ url, libs.hostname url = urlHostname tables url

/-- Where `requests` connects to: the host it reads in a url that starts with no whitespace, and
those of the redirections it follows. -/
structure HttpClient where
  host : String → Option String
  redirectHosts : RequestArgs → List String

def plainHost (u : PlainUrl) : String := String.ofList (u.host.map Char.toLower)

def HttpClient.ReadsPlainUrls (client : HttpClient) : Prop :=
  ∀ u : PlainUrl, client.host (String.ofList u.text) = some (plainHost u)

def HttpClient.hosts (client : HttpClient) (args : RequestArgs) : List String :=
  (client.host (lstrip args.url)).toList ++ client.redirectHosts args

/-- An address of 127.0.0.0/8, in the notation of `gethostbyname`. -/
def Loopback (address : String) : Prop :=
  address.toList.takeWhile (· ≠ '.') = ['1', '2', '7']

instance (address : String) : Decidable (Loopback address) :=
  inferInstanceAs (Decidable (_ = _))

/-- No connection of the request is to a loopback address. -/
def SparesLoopback (libs : HttpLibraries) (client : HttpClient) (args : RequestArgs) : Prop :=
  ∀ host ∈ client.hosts args, ∀ address, libs.gethostbyname host = .ok address →
    ¬ Loopback address

/-- The check of the url compares no address with 127.0.0.1, or another one. -/
def Passes (tables : Tables) (libs : HttpLibraries) (url : String) : Prop :=
  urlHostname tables url = .ok none ∨
    ∃ host address, urlHostname tables url = .ok (some host) ∧
      libs.gethostbyname host = .ok address ∧ address ≠ "127.0.0.1"

def HttpLibraries.IsLoopback (libs : HttpLibraries) (host : String) : Prop :=
  ∃ address, libs.gethostbyname host = .ok address ∧ Loopback address

/-- The host that `requests` reads in the url is not the one that is checked. -/
def Misread (tables : Tables) (libs : HttpLibraries) (client : HttpClient) (url : String) : Prop :=
  Passes tables libs url ∧ ∃ host, client.host (lstrip url) = some host ∧
    urlHostname tables url ≠ .ok (some host) ∧ libs.IsLoopback host

/-- The address is of the loopback network, and not the one with which it is compared. -/
def OtherLoopback (tables : Tables) (libs : HttpLibraries) (client : HttpClient) (url : String) :
    Prop :=
  ∃ host address, client.host (lstrip url) = some host ∧
    urlHostname tables url = .ok (some host) ∧ libs.gethostbyname host = .ok address ∧
    Loopback address ∧ address ≠ "127.0.0.1"

/-- The answer sends the request on to a host that nothing checks. -/
def Redirected (tables : Tables) (libs : HttpLibraries) (client : HttpClient)
    (args : RequestArgs) : Prop :=
  Passes tables libs args.url ∧ ∃ host ∈ client.redirectHosts args, libs.IsLoopback host

section Guard
variable {libs : HttpLibraries} {options : HttpSubscriptionConfigDict}
  {ownerUserUuid : Option String} {event : List (String × Json)} {tables : Tables}

theorem urlHostname_ne_empty (url : String) : urlHostname tables url ≠ .ok (some "") := by
  intro h
  obtain ⟨host, hread, hhost⟩ := Except.exists_of_map_eq_ok h
  cases host with
  | none => cases hhost
  | some host =>
    have hempty : String.ofList host = String.ofList [] := Option.some.inj hhost
    have hnil : host = [] := by simpa using congrArg String.toList hempty
    exact urlHost_ne_nil tables _ (hnil ▸ hread)

theorem urlIsLocalhost_eq_false_iff (hreads : libs.ReadsUrls tables) (url : String) :
    urlIsLocalhost libs url = .ok false ↔ Passes tables libs url := by
  unfold urlIsLocalhost Passes
  rw [hreads]
  cases hread : urlHostname tables url with
  | error message => simp [Except.mapError, bind, Except.bind]
  | ok host =>
    cases host with
    | none => simp [Except.mapError, bind, Except.bind, truthy, pure, Except.pure]
    | some remoteHost =>
      have hne : remoteHost ≠ "" := fun h => urlHostname_ne_empty url (h ▸ hread)
      have htruthy : truthy (some remoteHost) = some remoteHost := by simp [truthy, hne]
      cases hresolved : libs.gethostbyname remoteHost with
      | error message =>
        simp [Except.mapError, bind, Except.bind, htruthy, hresolved]
      | ok address =>
        simp [Except.mapError, bind, Except.bind, htruthy, hresolved, pure, Except.pure]

/-- A user's request is sent as an administrator's would be, unless the check keeps it. -/
theorem requestArgs_owner_iff (howner : (truthy ownerUserUuid).isSome) {args : RequestArgs}
    (hadmin : requestArgs libs options none event = .ok (some args)) :
    requestArgs libs options ownerUserUuid event = .ok (some args) ↔
      urlIsLocalhost libs args.url = .ok false := by
  have hrefuses : ∀ url, refusesUrl libs ownerUserUuid url = urlIsLocalhost libs url := by
    intro url
    obtain ⟨owner, ho⟩ := Option.isSome_iff_exists.mp howner
    rw [refusesUrl, ho]
  unfold requestArgs at hadmin ⊢
  obtain ⟨values, hvalues, hadmin⟩ := Except.exists_of_bind_eq_ok hadmin
  obtain ⟨url, hurl, hadmin⟩ := Except.exists_of_bind_eq_ok hadmin
  obtain ⟨-, ⟨⟩, hadmin⟩ := Except.exists_of_bind_eq_ok hadmin
  rw [Except.bind_of_eq_ok hvalues, Except.bind_of_eq_ok hurl, hrefuses]
  have hargs : args.url = url := by
    obtain ⟨data, -, h⟩ := Except.exists_of_bind_eq_ok hadmin
    obtain ⟨content, -, h⟩ := Except.exists_of_bind_eq_ok h
    obtain ⟨bytes, -, h⟩ := Except.exists_of_bind_eq_ok h
    obtain ⟨contentType, -, h⟩ := Except.exists_of_bind_eq_ok h
    cases h
    rfl
  rw [hargs]
  cases urlIsLocalhost libs url with
  | error e => exact iff_of_false nofun nofun
  | ok refused =>
    cases refused with
    | true => exact iff_of_false nofun nofun
    | false => exact iff_of_true hadmin rfl

theorem sparesLoopback_iff (client : HttpClient) (args : RequestArgs) :
    SparesLoopback libs client args ↔
      (∀ host, client.host (lstrip args.url) = some host → ¬ libs.IsLoopback host) ∧
        ∀ host ∈ client.redirectHosts args, ¬ libs.IsLoopback host := by
  unfold SparesLoopback HttpClient.hosts HttpLibraries.IsLoopback
  rw [List.forall_mem_append]
  simp only [Option.mem_toList, not_exists, not_and]

/-- A request that the check lets through reaches a loopback address in one of three ways. -/
theorem not_spares_of_passes_iff (client : HttpClient) {args : RequestArgs} :
    Passes tables libs args.url ∧ ¬ SparesLoopback libs client args ↔
      Misread tables libs client args.url ∨ OtherLoopback tables libs client args.url ∨
        Redirected tables libs client args := by
  rw [sparesLoopback_iff]
  constructor
  · rintro ⟨hpasses, hreached⟩
    by_cases hfirst : ∀ host, client.host (lstrip args.url) = some host → ¬ libs.IsLoopback host
    · have hredirect : ∃ host ∈ client.redirectHosts args, libs.IsLoopback host := by
        by_contra hnone
        exact hreached ⟨hfirst, fun host hhost h => hnone ⟨host, hhost, h⟩⟩
      exact .inr (.inr ⟨hpasses, hredirect⟩)
    · push Not at hfirst
      obtain ⟨host, hhost, hloopback⟩ := hfirst
      by_cases hread : urlHostname tables args.url = .ok (some host)
      · -- The check compares the address that is reached.
        obtain hnone | ⟨checked, address, hchecked, haddress, hne⟩ := hpasses
        · rw [hnone] at hread
          cases hread
        · rw [hchecked] at hread
          cases hread
          obtain ⟨address', haddress', h⟩ := hloopback
          rw [haddress] at haddress'
          cases haddress'
          exact .inr (.inl ⟨host, address, hhost, hchecked, haddress, h, hne⟩)
      · exact .inl ⟨hpasses, host, hhost, hread, hloopback⟩
  · rintro (⟨hpasses, host, hhost, -, h⟩ | ⟨host, address, hhost, hread, haddress, h, hne⟩ |
      ⟨hpasses, host, hhost, h⟩)
    · exact ⟨hpasses, fun hspares => hspares.1 host hhost h⟩
    · exact ⟨.inr ⟨host, address, hread, haddress, hne⟩,
        fun hspares => hspares.1 host hhost ⟨address, haddress, h⟩⟩
    · exact ⟨hpasses, fun hspares => hspares.2 host hhost h⟩

theorem isSpace_cases {c : Char} (h : isSpace c) : c.toNat ≤ 32 ∨ 128 ≤ c.toNat := by
  unfold isSpace at h
  grind

theorem urlHostname_plain {space : List Char} (hspace : ∀ c ∈ space, c.toNat ≤ 32)
    (u : PlainUrl) :
    urlHostname tables (String.ofList (space ++ u.text)) = .ok (some (plainHost u)) := by
  have hread := urlHost_text tables u fun c hc => decide_eq_true (hspace c hc)
  rw [urlHostname, String.toList_ofList, hread]
  rfl

theorem urlHostname_behind {space : List Char} (hspace : ∀ c ∈ space, isSpace c)
    (hleft : ∃ c ∈ space, 128 ≤ c.toNat) (u : PlainUrl) :
    urlHostname tables (String.ofList (space ++ u.text)) = .ok none := by
  obtain ⟨c, hc, hlarge⟩ := hleft
  cases hdrop : space.dropWhile isC0OrSpace with
  | nil =>
    have hall := List.dropWhile_eq_nil_iff.mp hdrop c hc
    have : c.toNat ≤ 32 := of_decide_eq_true hall
    omega
  | cons d rest =>
    have hd : d ∈ space := (List.dropWhile_suffix isC0OrSpace).subset (hdrop ▸ List.mem_cons_self)
    have hlow : ¬ d.toNat ≤ 32 := by
      have := List.head?_dropWhile_not isC0OrSpace space
      simpa [hdrop, isC0OrSpace] using this
    have hsplit : space = space.takeWhile isC0OrSpace ++ d :: rest := by
      rw [← hdrop, List.takeWhile_append_dropWhile]
    rw [urlHostname, String.toList_ofList, hsplit, List.append_assoc, List.cons_append,
      urlHost_nonAscii tables (fun c hc => List.mem_takeWhile_imp hc)
        ((isSpace_cases (hspace d hd)).resolve_left hlow)]
    rfl

theorem lstrip_plain {space : List Char} (hspace : ∀ c ∈ space, isSpace c) (u : PlainUrl) :
    lstrip (String.ofList (space ++ u.text)) = String.ofList u.text := by
  have hhead : ¬ isSpace 'h' := by decide
  rw [lstrip, String.toList_ofList, List.dropWhile_append_of_pos hspace, PlainUrl.text]
  obtain h | h : u.scheme = _ ∨ u.scheme = _ := by simpa using u.scheme_http
  all_goals rw [h, List.cons_append, List.dropWhile_cons_of_neg hhead]

/-- A user's request, if it is sent, spares the loopback addresses unless the url is misread, its
host has another of them, or the request is redirected to one. Of a plain url, the first is so if
a character that `urlparse` leaves stands before it. -/
theorem spares_loopback_iff (hreads : libs.ReadsUrls tables) {client : HttpClient}
    (hclient : client.ReadsPlainUrls) (howner : (truthy ownerUserUuid).isSome)
    {args : RequestArgs} (hadmin : requestArgs libs options none event = .ok (some args)) :
    ((requestArgs libs options ownerUserUuid event = .ok (some args) →
        SparesLoopback libs client args) ↔
      ¬ Misread tables libs client args.url ∧ ¬ OtherLoopback tables libs client args.url ∧
        ¬ Redirected tables libs client args) ∧
    ∀ space (u : PlainUrl), (∀ c ∈ space, isSpace c) →
      args.url = String.ofList (space ++ u.text) →
      (Misread tables libs client args.url ↔
        (∃ c ∈ space, 128 ≤ c.toNat) ∧ libs.IsLoopback (plainHost u)) ∧
      (OtherLoopback tables libs client args.url ↔
        (∀ c ∈ space, c.toNat ≤ 32) ∧ ∃ address, libs.gethostbyname (plainHost u) = .ok address ∧
          Loopback address ∧ address ≠ "127.0.0.1") ∧
      (Redirected tables libs client args ↔
        ((∃ c ∈ space, 128 ≤ c.toNat) ∨
          ∃ address, libs.gethostbyname (plainHost u) = .ok address ∧ address ≠ "127.0.0.1") ∧
        ∃ host ∈ client.redirectHosts args, libs.IsLoopback host) := by
  constructor
  · rw [requestArgs_owner_iff howner hadmin, urlIsLocalhost_eq_false_iff hreads, ← not_or,
      ← not_or, ← not_spares_of_passes_iff, not_and_not_right]
  · intro space u hspace hurl
    have hhost : client.host (lstrip args.url) = some (plainHost u) := by
      rw [hurl, lstrip_plain hspace, hclient]
    by_cases hlow : ∀ c ∈ space, c.toNat ≤ 32
    · have hread : urlHostname tables args.url = .ok (some (plainHost u)) := by
        rw [hurl, urlHostname_plain hlow]
      have hleft : ¬ ∃ c ∈ space, 128 ≤ c.toNat := by
        rintro ⟨c, hc, hlarge⟩
        have := hlow c hc
        omega
      simp [Misread, OtherLoopback, Redirected, Passes, hhost, hread, iff_true_intro hlow, hleft]
    · have hleft : ∃ c ∈ space, 128 ≤ c.toNat := by
        push Not at hlow
        obtain ⟨c, hc, hc32⟩ := hlow
        exact ⟨c, hc, (isSpace_cases (hspace c hc)).resolve_left (by omega)⟩
      have hread : urlHostname tables args.url = .ok none := by
        rw [hurl, urlHostname_behind hspace hleft]
      simp [Misread, OtherLoopback, Redirected, Passes, hhost, hread, iff_false_intro hlow, hleft]

end Guard

def urlConfig (url : String) : HttpSubscriptionConfigDict where
  body := none
  method := "get"
  url := url
  verifyCertificate := none
  contentType := none

/-- Tables of the characters of ASCII. -/
def asciiTables : Tables where
  lower s := s.map Char.toLower
  normalize s := s
  checkBracketedHost _ := .error "does not appear to be an IPv4 or IPv6 address"
  lower_ascii _ _ := rfl
  lower_ne_nil _ h := List.map_eq_nil_iff.not.mpr h

/-- A resolver that knows two loopback addresses by name. -/
def HttpLibraries.resolving : HttpLibraries :=
  { HttpLibraries.plain with
    hostname := urlHostname asciiTables
    gethostbyname := fun host =>
      if host = "internal" then .ok "127.0.0.2"
      else if host = "localhost" then .ok "127.0.0.1"
      else .ok "192.0.2.1" }

/-- A client to which a backslash ends the authority, and a server that redirects to the local
host. -/
def HttpClient.redirected : HttpClient where
  host url := (readHost ['/', '\\', '?', '#'] url.toList).map String.ofList
  redirectHosts args := if args.url = "http://example.com/" then ["localhost"] else []

theorem HttpClient.readsPlainUrls_redirected : HttpClient.redirected.ReadsPlainUrls := by
  intro u
  have hread : readHost ['/', '\\', '?', '#'] u.text = _ :=
    readHost_text (List.forall_iff_forall_mem.mp (by decide))
      (List.forall_iff_forall_mem.mp (by decide)) u
  simp only [HttpClient.redirected, String.toList_ofList, hread]
  rfl

def urlArgs (url : String) : RequestArgs :=
  ⟨"get", url, "null".toUTF8, .unset, "application/json; charset=utf-8"⟩

def rootUrl (host : List Char) (hhost : ∀ c ∈ host, isHostChar c)
    (hhead : ∃ c ∈ host.head?, c ≠ '.') : PlainUrl where
  scheme := ['h', 't', 't', 'p']
  user := none
  host := host
  port := none
  rest := ['/']
  scheme_http := by decide
  user_plain := nofun
  host_plain := hhost
  host_head := hhead
  port_digits := nofun
  rest_head := by simp

/-- A host that is kept from the user, and one that is reached. -/
theorem spares_loopback_iff_known :
    (requestArgs .resolving (urlConfig "http://localhost/") (some "user") someEvent =
        .ok (some (urlArgs "http://localhost/")) →
      SparesLoopback .resolving .redirected (urlArgs "http://localhost/")) ∧
    requestArgs .resolving (urlConfig "http://example.org/") (some "user") someEvent =
        .ok (some (urlArgs "http://example.org/")) ∧
      SparesLoopback .resolving .redirected (urlArgs "http://example.org/") := by
  have hspares : ∀ (u : PlainUrl) (url : String), url = String.ofList u.text →
      requestArgs .resolving (urlConfig url) none someEvent = .ok (some (urlArgs url)) →
      (∀ address, HttpLibraries.resolving.gethostbyname (plainHost u) = .ok address →
        Loopback address → address = "127.0.0.1") →
      HttpClient.redirected.redirectHosts (urlArgs url) = [] →
      requestArgs .resolving (urlConfig url) (some "user") someEvent = .ok (some (urlArgs url)) →
        SparesLoopback .resolving .redirected (urlArgs url) := by
    intro u url hurl hadmin haddress hredirect
    have hreads : HttpLibraries.resolving.ReadsUrls asciiTables := fun _ => rfl
    have howner : (truthy (some "user")).isSome := rfl
    have h := spares_loopback_iff hreads HttpClient.readsPlainUrls_redirected howner hadmin
    have hkinds := h.2 [] u nofun hurl
    refine h.1.mpr ⟨?_, ?_, ?_⟩
    · rw [hkinds.1]
      rintro ⟨⟨c, ⟨⟩, -⟩, -⟩
    · rw [hkinds.2.1]
      rintro ⟨-, address, h, hloopback, hne⟩
      exact hne (haddress address h hloopback)
    · rw [hkinds.2.2, hredirect]
      rintro ⟨-, host, ⟨⟩, -⟩
  have hsent : requestArgs .resolving (urlConfig "http://example.org/") (some "user") someEvent =
      .ok (some (urlArgs "http://example.org/")) := rfl
  have hlocalhost : ∀ c ∈ "localhost".toList, isHostChar c :=
    List.forall_iff_forall_mem.mp (by decide)
  have hexample : ∀ c ∈ "example.org".toList, isHostChar c :=
    List.forall_iff_forall_mem.mp (by decide)
  refine ⟨hspares (rootUrl _ hlocalhost ⟨'l', rfl, by decide⟩) _ rfl rfl ?_ rfl, hsent,
    hspares (rootUrl _ hexample ⟨'e', rfl, by decide⟩) _ rfl rfl ?_ rfl hsent⟩
  · rintro address ⟨⟩ -
    rfl
  · rintro address ⟨⟩ hloopback
    exact absurd hloopback (by decide)

/-- The guard lets the request of a user through, and it reaches a loopback address. -/
def ReachesLoopback (url : String) : Prop :=
  requestArgs .resolving (urlConfig url) (some "user") someEvent = .ok (some (urlArgs url)) ∧
    ¬ SparesLoopback .resolving .redirected (urlArgs url)

/-- Another loopback address, a redirection, a space that `urlparse` does not strip, and a
backslash that does not end its authority. -/
theorem loopback_reached :
    ReachesLoopback "http://internal/" ∧ ReachesLoopback "http://example.com/" ∧
      ReachesLoopback "\u00a0http://localhost/" ∧
      ReachesLoopback "http://localhost\\@example.org/" := by
  have hreached : ∀ url, ∀ host ∈ HttpClient.redirected.hosts (urlArgs url), ∀ address,
      HttpLibraries.resolving.gethostbyname host = .ok address → Loopback address →
        ¬ SparesLoopback .resolving .redirected (urlArgs url) :=
    fun url host hhost address haddress hloopback hspares =>
      hspares host hhost address haddress hloopback
  refine ⟨⟨rfl, ?_⟩, ⟨rfl, ?_⟩, ⟨rfl, ?_⟩, ⟨rfl, ?_⟩⟩
  · exact hreached _ "internal" (by decide) "127.0.0.2" rfl (by decide)
  · exact hreached _ "localhost" (by decide) "127.0.0.1" rfl (by decide)
  · exact hreached _ "localhost" (by decide) "127.0.0.1" rfl (by decide)
  · exact hreached _ "localhost" (by decide) "127.0.0.1" rfl (by decide)

end WazoWebhookd

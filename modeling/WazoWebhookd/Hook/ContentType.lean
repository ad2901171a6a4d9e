import WazoWebhookd.Hook.LocalhostGuard
import WazoWebhookd.Library.HeaderParams
import WazoWebhookd.Library.HeaderWeights

/-! The content type of a request, built from what is read of the one of the subscription. -/
namespace WazoWebhookd
open HttpService HeaderParams

def paramValue : Value → ParamValue
  | .text s => .text (String.ofList s)
  | .encoded charset language value =>
    .encoded (charset.map String.ofList) (language.map String.ofList) (String.ofList value)

def paramString (p : List Char × Value) : String × ParamValue :=
  (String.ofList p.1, paramValue p.2)

/-- The headers are read as `email.message` reads them; a template without expressions is its own
text, and there are bytes for it in UTF-8. -/
structure HttpLibraries.ReadsHeaders (libs : HttpLibraries) (script : Script) : Prop where
  lower : ∀ s, libs.lower s = String.ofList (script.lower s.toList)
  getContentType : ∀ s, libs.getContentType s = String.ofList (script.contentType s.toList)
  getParams : ∀ s read, script.params s.toList = some read →
    libs.getParams s = .ok (read.map paramString)
  getParams_error : ∀ s, script.params s.toList = none → ∃ e, libs.getParams s = .error e
  render : ∀ values, libs.render "body" values = .ok "body"
  encode : ∃ data, libs.encode "body" "utf-8" = .ok data

/-- The last value of each name, without the media type and the empty values. -/
def namedParams (script : Script) (m : List Char) (read : List (List Char × Value)) :
    List (List Char × Value) :=
  KeyedList.ofPairs ((read.filter fun p =>
    script.lower p.1 ≠ script.lower m ∧ p.2 ≠ .text []).map fun p => (script.lower p.1, p.2))

/-- Parameters that are kept as they are when they are read. -/
structure KeptParams (script : Script) (m : List Char)
    (ps : List (List Char × List Char)) : Prop where
  lower : ∀ p ∈ ps, script.lower p.1 = p.1
  media : ∀ p ∈ ps, p.1 ≠ script.lower m
  value : ∀ p ∈ ps, p.2 ≠ []
  nodup : (ps.map (·.1)).Nodup

/-- The media type, read as a parameter, adds none to these. -/
def AddsNone (script : Script) (m : List Char) (ps : List (List Char × List Char)) : Prop :=
  unquote (script.readParam m).2 = [] ∨ script.lower (script.readParam m).1 ∈ ps.map (·.1)

def charsetParam : List Char × List Char := ("charset".toList, "utf-8".toList)

def withCharset (ps : List (List Char × List Char)) : List (List Char × List Char) :=
  if charsetParam.1 ∈ ps.map (·.1) then ps else ps ++ [charsetParam]

/-- The parameters that are kept have texts as values, each of which reads back; no quotes are
open before another parameter. -/
def Rebuildable (script : Script) (s : List Char) : Prop :=
  ∃ read ps, script.params s = some read ∧
    namedParams script (script.contentType s) read = ps.map textParam ∧
    Separate (script.contentType s) ((withCharset ps).map Script.written) ∧
    (∀ p ∈ ps, script.ReadsBack p) ∧ AddsNone script (script.contentType s) ps

/-- The header built from a content type is read as the content type is. -/
def Rebuilds (libs : HttpLibraries) (contentType : String) : Prop :=
  ∃ mimetype options header read, parseContentType libs contentType = .ok (mimetype, options) ∧
    buildContentTypeHeader mimetype options = .ok header ∧
    parseContentType libs header = .ok (mimetype, read) ∧
    ∀ key, read.lookup key = options.lookup key

/-- The charset that is read in the header of a request is the one its body was encoded with. -/
def LabelsBody (libs : HttpLibraries) (options : HttpSubscriptionConfigDict)
    (event : List (String × Json)) (args : RequestArgs) : Prop :=
  ∃ values data content charset mimetype read, templateValues event = .ok values ∧
    getItem event "data" = .ok data ∧ renderContent libs options values data = .ok content ∧
    content.charset = .ok charset ∧ libs.encode content.text charset = .ok args.data ∧
    parseContentType libs args.contentType = .ok (mimetype, read) ∧
    read.lookup "charset" = some (.text charset)

/-- What is sent says what the content type does: the header built from it is read as it is, and
no request has a body in a charset other than the one that is read. -/
def Keeps (libs : HttpLibraries) (contentType : String) : Prop :=
  Rebuilds libs contentType ∧ ∀ options ownerUserUuid event args,
    options.contentType = some contentType →
    requestArgs libs options ownerUserUuid event = .ok (some args) →
      LabelsBody libs options event args

def plainBody (contentType : String) : HttpSubscriptionConfigDict where
  body := some "body"
  method := "post"
  url := "body"
  verifyCertificate := none
  contentType := some contentType

section Spec
variable {libs : HttpLibraries} {script : Script}

theorem truthy_paramValue (v : Value) : (paramValue v).truthy = decide (v ≠ .text []) := by
  cases v with
  | text s => simp [paramValue, ParamValue.truthy]
  | encoded charset language value => simp [paramValue, ParamValue.truthy]

theorem parseContentType_eq (hl : libs.ReadsHeaders script) {s : String}
    {read : List (List Char × Value)} (hread : script.params s.toList = some read) :
    parseContentType libs s = .ok (String.ofList (script.contentType s.toList),
      (namedParams script (script.contentType s.toList) read).map paramString) := by
  have hlower : ∀ t, libs.lower (String.ofList t) = String.ofList (script.lower t) := by
    intro t
    rw [hl.lower, String.toList_ofList]
  have hkept : ∀ p : List Char × Value,
      decide (libs.lower (paramString p).1 ≠
          libs.lower (String.ofList (script.contentType s.toList)) ∧
        (paramString p).2.truthy) =
      decide (script.lower p.1 ≠ script.lower (script.contentType s.toList) ∧
        p.2 ≠ .text []) := by
    intro p
    rw [decide_eq_decide, paramString, hlower, hlower, truthy_paramValue, decide_eq_true_iff,
      Ne, String.ofList_inj]
  have hfilter : read.filter ((fun p : String × ParamValue => decide (libs.lower p.1 ≠
      libs.lower (String.ofList (script.contentType s.toList)) ∧ p.2.truthy)) ∘ paramString) =
      read.filter fun p => script.lower p.1 ≠ script.lower (script.contentType s.toList) ∧
        p.2 ≠ .text [] := List.filter_congr fun p _ => hkept p
  unfold parseContentType
  rw [hl.getParams s read hread, hl.getContentType]
  simp only [Except.mapError, bind, Except.bind, pure, Except.pure]
  rw [List.filter_map, hfilter, List.map_map, namedParams]
  unfold paramString
  rw [KeyedList.map_ofPairs (fun _ _ => String.ofList_injective), List.map_map]
  congr 3
  refine List.map_congr_left fun p _ => ?_
  simp [hlower]

theorem lookup_map_paramString (d : List (List Char × Value)) (key : String) :
    (d.map paramString).lookup key = (d.lookup key.toList).map paramValue := by
  induction d with
  | nil => rfl
  | cons p d ih =>
    have hkey : key = (paramString p).1 ↔ key.toList = p.1 := by
      rw [← String.toList_inj, paramString, String.toList_ofList]
    rw [List.map_cons, KeyedList.lookup_cons, KeyedList.lookup_cons, ih]
    by_cases hk : key.toList = p.1
    · rw [if_pos hk, if_pos (hkey.mpr hk)]
      rfl
    · rw [if_neg hk, if_neg (hk ∘ hkey.mp)]

theorem semicolon_intercalate (p : List Char × List Char) (ps : List (List Char × List Char)) :
    ';' :: ' ' :: [';', ' '].intercalate ((p :: ps).map fun p => p.1 ++ '=' :: p.2) =
      ((p :: ps).map Script.written).flatMap fun q => ';' :: q := by
  induction ps generalizing p with
  | nil => simp [Script.written]
  | cons q ps ih =>
    have hrest := ih q
    rw [List.map_cons] at hrest
    rw [List.map_cons, List.map_cons, List.intercalate_cons_cons, List.map_cons,
      List.flatMap_cons, ← hrest]
    simp [Script.written]

theorem buildContentTypeHeader_texts (m : List Char) (ps : List (List Char × List Char)) :
    buildContentTypeHeader (String.ofList m) ((ps.map textParam).map paramString) =
      .ok (String.ofList (join m (ps.map Script.written))) := by
  have hmap : ∀ f : String × ParamValue → Except RunError String,
      (∀ p, f (paramString (textParam p)) =
        .ok (String.ofList p.1 ++ "=" ++ String.ofList p.2)) →
      ((ps.map textParam).map paramString).mapM f =
        .ok (ps.map fun p => String.ofList p.1 ++ "=" ++ String.ofList p.2) := by
    intro f hf
    induction ps with
    | nil => rfl
    | cons p ps ih =>
      rw [List.map_cons, List.map_cons, List.mapM_cons, ih, hf]
      rfl
  unfold buildContentTypeHeader
  rw [Except.bind_of_eq_ok (hmap _ fun p => rfl)]
  cases ps with
  | nil => simp [join, pure, Except.pure]
  | cons p ps =>
    have hstring : (String.ofList m ++ "; " ++ "; ".intercalate ((p :: ps).map fun p =>
        String.ofList p.1 ++ "=" ++ String.ofList p.2)).toList =
          join m ((p :: ps).map Script.written) := by
      have htexts : ((p :: ps).map fun p => String.ofList p.1 ++ "=" ++ String.ofList p.2).map
          String.toList = (p :: ps).map fun p => p.1 ++ '=' :: p.2 := by
        rw [List.map_map]
        refine List.map_congr_left fun p _ => ?_
        simp
      rw [String.toList_append, String.toList_append, String.toList_intercalate, htexts,
        String.toList_ofList, join, ← semicolon_intercalate]
      simp
    rw [← hstring, String.ofList_toList]
    rfl

theorem kept_of_namedParams {m : List Char} {read : List (List Char × Value)}
    {ps : List (List Char × List Char)} (h : namedParams script m read = ps.map textParam) :
    KeptParams script m ps := by
  have hmem : ∀ p ∈ ps, ∃ name, script.lower name = p.1 ∧
      script.lower name ≠ script.lower m ∧ Value.text p.2 ≠ .text [] := by
    intro p hp
    have hnamed : textParam p ∈ namedParams script m read := h ▸ List.mem_map_of_mem hp
    obtain ⟨q, hq, heq⟩ := List.mem_map.mp (KeyedList.mem_of_mem_ofPairs hnamed)
    obtain ⟨hname, hvalue⟩ := Prod.mk.inj heq
    have hkept := of_decide_eq_true (List.mem_filter.mp hq).2
    exact ⟨q.1, hname, hkept.1, hvalue ▸ hkept.2⟩
  refine ⟨fun p hp => ?_, fun p hp => ?_, fun p hp => ?_, ?_⟩
  · obtain ⟨name, hname, -⟩ := hmem p hp
    rw [← hname, script.lower_lower]
  · obtain ⟨name, hname, hne, -⟩ := hmem p hp
    exact hname ▸ hne
  · obtain ⟨-, -, -, hvalue⟩ := hmem p hp
    exact fun hempty => hvalue (congrArg Value.text hempty)
  · have hnodup : ((namedParams script m read).map (·.1)).Nodup := KeyedList.nodup_ofPairs _
    rw [h, List.map_map] at hnodup
    exact hnodup

/-- Parameters that are kept are all found again, and no other. -/
theorem lookup_namedParams_texts {m : List Char} {p : List Char × List Char}
    {ps : List (List Char × List Char)} (hps : KeptParams script m ps)
    (hp : p.2 = [] ∨ script.lower p.1 ∈ ps.map (·.1)) (key : List Char) :
    (namedParams script m (textParam p :: ps.map textParam)).lookup key =
      (ps.map textParam).lookup key := by
  have hnodup : ((ps.map textParam).map (·.1)).Nodup := by
    rw [List.map_map]
    exact hps.nodup
  have hfilter : (ps.map textParam).filter (fun p =>
      script.lower p.1 ≠ script.lower m ∧ p.2 ≠ .text []) = ps.map textParam := by
    rw [List.filter_eq_self]
    intro q hq
    obtain ⟨r, hr, rfl⟩ := List.mem_map.mp hq
    have hmedia : script.lower r.1 ≠ script.lower m := (hps.lower r hr).symm ▸ hps.media r hr
    have hvalue : Value.text r.2 ≠ .text [] := fun h => hps.value r hr (Value.text.inj h)
    exact decide_eq_true ⟨hmedia, hvalue⟩
  have hmap : (ps.map textParam).map (fun p => (script.lower p.1, p.2)) = ps.map textParam := by
    rw [List.map_map]
    refine List.map_congr_left fun q hq => ?_
    exact Prod.ext (hps.lower q hq) rfl
  unfold namedParams
  rw [KeyedList.lookup_ofPairs, List.filter_cons]
  split_ifs with hkept
  · have hkept := of_decide_eq_true hkept
    have hname : script.lower p.1 ∈ ps.map (·.1) :=
      hp.resolve_left fun hempty => hkept.2 (congrArg Value.text hempty)
    rw [List.map_cons, hfilter, hmap, List.reverse_cons, List.lookup_append,
      KeyedList.lookup_reverse hnodup, KeyedList.lookup_cons]
    split_ifs with hkey
    · have hsome : ((ps.map textParam).lookup key).isSome := by
        rw [Option.isSome_iff_ne_none, Ne, KeyedList.lookup_eq_none_iff_notMem, List.map_map,
          not_not]
        exact hkey ▸ hname
      rw [Option.or_of_isSome hsome]
    · exact Option.or_none
  · rw [hfilter, hmap, KeyedList.lookup_reverse hnodup]

/-- A header of parameters that each read back is read as it was written. -/
theorem parseContentType_join (hl : libs.ReadsHeaders script) {m : List Char}
    {ps : List (List Char × List Char)} (hm : script.MediaType m) (hps : KeptParams script m ps)
    (hsep : Separate m (ps.map Script.written)) (hback : ∀ p ∈ ps, script.ReadsBack p)
    (hadds : AddsNone script m ps) :
    ∃ read, parseContentType libs (String.ofList (join m (ps.map Script.written))) =
        .ok (String.ofList m, read) ∧
      ∀ key, read.lookup key = ((ps.map textParam).map paramString).lookup key := by
  have hread := Script.params_join hsep hback
  rw [← String.toList_ofList (l := join m (ps.map Script.written))] at hread
  have hparse := parseContentType_eq hl hread
  rw [String.toList_ofList, hm.contentType_join] at hparse
  refine ⟨_, hparse, fun key => ?_⟩
  rw [lookup_map_paramString, lookup_map_paramString]
  have hlookup := lookup_namedParams_texts
    (p := ((script.readParam m).1, unquote (script.readParam m).2)) hps hadds key.toList
  exact congrArg _ hlookup

theorem readsBack_charsetParam (script : Script) : script.ReadsBack charsetParam := by
  have hread : script.readParam (Script.written charsetParam) = charsetParam := by
    rw [Script.readParam_written (by decide),
      script.strip_of_visible (forall_mem_of_all (by decide)),
      script.strip_of_visible (forall_mem_of_all (by decide)),
      script.lower_of_ascii _ (forall_mem_of_all (by decide))]
  unfold Script.ReadsBack
  rw [hread]
  decide

theorem readsBack_withCharset {ps : List (List Char × List Char)}
    (h : ∀ p ∈ ps, script.ReadsBack p) : ∀ p ∈ withCharset ps, script.ReadsBack p := by
  unfold withCharset
  split_ifs
  · exact h
  · intro p hp
    rcases List.mem_append.mp hp with hp | hp
    · exact h p hp
    · exact List.mem_singleton.mp hp ▸ readsBack_charsetParam script

theorem kept_withCharset {m : List Char} {ps : List (List Char × List Char)}
    (hm : script.MediaType m) (h : KeptParams script m ps) :
    KeptParams script m (withCharset ps) := by
  unfold withCharset
  split_ifs with hcharset
  · exact h
  · have hlower : script.lower charsetParam.1 = charsetParam.1 :=
      script.lower_of_ascii _ (forall_mem_of_all (by decide))
    have hmedia : charsetParam.1 ≠ script.lower m := by
      rw [hm.lower_eq]
      rintro rfl
      exact absurd hm.slash (by decide)
    have happend : ∀ P : List Char × List Char → Prop, (∀ p ∈ ps, P p) → P charsetParam →
        ∀ p ∈ ps ++ [charsetParam], P p := by
      intro P hps hp p hmem
      rcases List.mem_append.mp hmem with hmem | hmem
      · exact hps p hmem
      · exact List.mem_singleton.mp hmem ▸ hp
    refine ⟨happend _ h.lower hlower, happend _ h.media hmedia,
      happend _ h.value (by decide), ?_⟩
    rw [List.map_append, List.map_singleton]
    exact List.nodup_append.mpr ⟨h.nodup, List.nodup_singleton _, by
      rintro a ha b hb rfl
      exact hcharset (List.mem_singleton.mp hb ▸ ha)⟩

theorem separate_of_withCharset {m : List Char} {ps : List (List Char × List Char)}
    (h : Separate m ((withCharset ps).map Script.written)) :
    Separate m (ps.map Script.written) := by
  unfold withCharset at h
  split_ifs at h
  · exact h
  · rw [List.map_append] at h
    exact h.of_append

theorem addsNone_withCharset {m : List Char} {ps : List (List Char × List Char)}
    (h : AddsNone script m ps) : AddsNone script m (withCharset ps) := by
  refine h.imp_right fun hmem => ?_
  unfold withCharset
  split_ifs
  · exact hmem
  · rw [List.map_append]
    exact List.mem_append_left _ hmem

theorem setdefault_charset (ps : List (List Char × List Char)) :
    (if (((ps.map textParam).map paramString).lookup "charset").isSome
      then (ps.map textParam).map paramString
      else (ps.map textParam).map paramString ++ [("charset", .text "utf-8")]) =
      ((withCharset ps).map textParam).map paramString := by
  have hmem : (((ps.map textParam).map paramString).lookup "charset").isSome ↔
      charsetParam.1 ∈ ps.map (·.1) := by
    rw [lookup_map_paramString, Option.isSome_map, Option.isSome_iff_ne_none, Ne,
      KeyedList.lookup_eq_none_iff_notMem, not_not, List.map_map]
    rfl
  unfold withCharset
  by_cases h : charsetParam.1 ∈ ps.map (·.1)
  · rw [if_pos h, if_pos (hmem.mpr h)]
  · rw [if_neg h, if_neg (h ∘ hmem.mp), List.map_append, List.map_append]
    rfl

/-- A content of texts that read back is labelled with its charset. -/
theorem labelsBody_of_texts (hl : libs.ReadsHeaders script) {m : List Char}
    {ps : List (List Char × List Char)} (hm : script.MediaType m) (hps : KeptParams script m ps)
    (hsep : Separate m ((withCharset ps).map Script.written))
    (hback : ∀ p ∈ ps, script.ReadsBack p) (hadds : AddsNone script m ps)
    {options : HttpSubscriptionConfigDict} {event : List (String × Json)} {args : RequestArgs}
    {values : List (String × Json)} {data : Json} {content : Content}
    (hvalues : templateValues event = .ok values) (hdata : getItem event "data" = .ok data)
    (hcontent : renderContent libs options values data = .ok content)
    (hencode : content.encode libs = .ok args.data)
    (htype : buildContentTypeHeader content.mimetype content.options = .ok args.contentType)
    (hmimetype : content.mimetype = String.ofList m)
    (hoptions : content.options = ((withCharset ps).map textParam).map paramString) :
    LabelsBody libs options event args := by
  obtain ⟨charset, hcharset, hbytes⟩ := Except.exists_of_bind_eq_ok hencode
  have hheader : args.contentType =
      String.ofList (join m ((withCharset ps).map Script.written)) := by
    rw [hmimetype, hoptions, buildContentTypeHeader_texts] at htype
    exact (Except.ok.inj htype).symm
  obtain ⟨read, hparse, hlookup⟩ := parseContentType_join hl hm (kept_withCharset hm hps) hsep
    (readsBack_withCharset hback) (addsNone_withCharset hadds)
  have hread : read.lookup "charset" = some (.text charset) := by
    rw [hlookup, ← hoptions]
    unfold Content.charset at hcharset
    cases hvalue : content.options.lookup "charset" with
    | none => simp [hvalue] at hcharset
    | some value =>
      cases value with
      | encoded => simp [hvalue] at hcharset
      | text s =>
        simp only [hvalue, Except.ok.injEq] at hcharset
        rw [hcharset]
  refine ⟨values, data, content, charset, String.ofList m, read, hvalues, hdata, hcontent,
    hcharset, ?_, hheader ▸ hparse, hread⟩
  cases he : libs.encode content.text charset with
  | error e => simp [he, Except.mapError] at hbytes
  | ok bytes => simpa [he, Except.mapError] using hbytes

theorem rebuilds_of_rebuildable (hl : libs.ReadsHeaders script) {s : String}
    (h : Rebuildable script s.toList) : Rebuilds libs s := by
  obtain ⟨read, ps, hread, hnamed, hsep, hback, hadds⟩ := h
  have hm := script.mediaType_contentType s.toList
  have hparse := parseContentType_eq hl hread
  rw [hnamed] at hparse
  obtain ⟨again, hagain, hlookup⟩ := parseContentType_join hl hm (kept_of_namedParams hnamed)
    (separate_of_withCharset hsep) hback hadds
  exact ⟨_, _, _, again, hparse, buildContentTypeHeader_texts _ _, hagain, hlookup⟩

theorem labelsBody_of_rebuildable (hl : libs.ReadsHeaders script) {s : String}
    (h : Rebuildable script s.toList) {options : HttpSubscriptionConfigDict}
    {ownerUserUuid : Option String} {event : List (String × Json)} {args : RequestArgs}
    (hs : options.contentType = some s)
    (hargs : requestArgs libs options ownerUserUuid event = .ok (some args)) :
    LabelsBody libs options event args := by
  obtain ⟨values, data, content, hvalues, hdata, hcontent, hencode, htype⟩ :=
    content_of_requestArgs hargs
  have hrender := hcontent
  unfold renderContent at hrender
  cases hbody : truthy options.body with
  | none =>
    rw [hbody] at hrender
    obtain ⟨text, -, hpure⟩ := Except.exists_of_bind_eq_ok hrender
    cases hpure
    have hm : script.MediaType "application/json".toList :=
      script.mediaType_of_visible (forall_mem_of_all (by decide)) (by decide) (by decide)
    have hadds : AddsNone script "application/json".toList [] := by
      left
      rw [Script.readParam_of_notMem (by decide)]
      rfl
    have hkept : KeptParams script "application/json".toList [] := by
      constructor <;> simp
    have hback : ∀ p ∈ [], script.ReadsBack p := by simp
    exact labelsBody_of_texts hl hm hkept (by decide) hback hadds hvalues hdata hcontent hencode
      htype rfl rfl
  | some body =>
    rw [hbody] at hrender
    obtain ⟨read, ps, hread, hnamed, hsep, hback, hadds⟩ := h
    have hparse := parseContentType_eq hl hread
    rw [hnamed] at hparse
    rw [hs] at hrender
    obtain ⟨parsed, hparsed, hrender⟩ := Except.exists_of_bind_eq_ok hrender
    obtain rfl := Except.ok.inj (hparse.symm.trans hparsed)
    obtain ⟨text, -, hpure⟩ := Except.exists_of_bind_eq_ok hrender
    rw [setdefault_charset] at hpure
    cases hpure
    exact labelsBody_of_texts hl (script.mediaType_contentType s.toList)
      (kept_of_namedParams hnamed) hsep hback hadds hvalues hdata hcontent hencode htype rfl rfl

theorem exists_texts_of_build {m header : String} {d : List (List Char × Value)}
    (h : buildContentTypeHeader m (d.map paramString) = .ok header) :
    ∃ ps : List (List Char × List Char), d = ps.map textParam := by
  unfold buildContentTypeHeader at h
  obtain ⟨texts, htexts, -⟩ := Except.exists_of_bind_eq_ok h
  clear h
  induction d generalizing texts with
  | nil => exact ⟨[], rfl⟩
  | cons p d ih =>
    rw [List.map_cons, List.mapM_cons] at htexts
    obtain ⟨text, htext, htexts⟩ := Except.exists_of_bind_eq_ok htexts
    obtain ⟨rest, hrest, -⟩ := Except.exists_of_bind_eq_ok htexts
    obtain ⟨ps, rfl⟩ := ih rest hrest
    obtain ⟨name, value⟩ := p
    cases value with
    | encoded => cases htext
    | text value => exact ⟨(name, value) :: ps, rfl⟩

theorem paramValue_injective : paramValue.Injective := by
  have hmap : ∀ a b : Option (List Char), a.map String.ofList = b.map String.ofList → a = b :=
    fun a b => (Option.map_injective fun _ _ => String.ofList_injective).eq_iff.mp
  intro v w h
  cases v with
  | text s =>
    cases w with
    | encoded => cases h
    | text t => exact congrArg Value.text (String.ofList_injective (ParamValue.text.inj h))
  | encoded charset language s =>
    cases w with
    | text => cases h
    | encoded charset' language' t =>
      obtain ⟨hcharset, hlanguage, hvalue⟩ := ParamValue.encoded.inj h
      rw [hmap _ _ hcharset, hmap _ _ hlanguage, String.ofList_injective hvalue]

theorem exists_params_of_parse (hl : libs.ReadsHeaders script) {s : String}
    {parsed : String × List (String × ParamValue)} (h : parseContentType libs s = .ok parsed) :
    ∃ read, script.params s.toList = some read ∧
      parsed = (String.ofList (script.contentType s.toList),
        (namedParams script (script.contentType s.toList) read).map paramString) := by
  cases hread : script.params s.toList with
  | none =>
    obtain ⟨e, he⟩ := hl.getParams_error s hread
    unfold parseContentType at h
    rw [he] at h
    cases h
  | some read =>
    exact ⟨read, rfl, (Except.ok.inj ((parseContentType_eq hl hread).symm.trans h)).symm⟩

/-- What a header must be read as, to be read as the content type it is built from. -/
theorem exists_read_of_rebuilds (hl : libs.ReadsHeaders script) {s : String}
    (h : Rebuilds libs s) :
    ∃ read, ∃ ps : List (List Char × List Char), ∃ again, script.params s.toList = some read ∧
      namedParams script (script.contentType s.toList) read = ps.map textParam ∧
      script.params (join (script.contentType s.toList) (ps.map Script.written)) = some again ∧
      ∀ key, (namedParams script (script.contentType s.toList) again).lookup key =
        (ps.map textParam).lookup key := by
  obtain ⟨mimetype, options, header, reread, hparse, hbuild, hagain, hlookup⟩ := h
  obtain ⟨read, hread, hparsed⟩ := exists_params_of_parse hl hparse
  obtain ⟨rfl, rfl⟩ := Prod.mk.inj hparsed
  obtain ⟨ps, hps⟩ := exists_texts_of_build hbuild
  rw [hps, buildContentTypeHeader_texts] at hbuild
  obtain rfl := Except.ok.inj hbuild
  obtain ⟨again, hparams, hparsed⟩ := exists_params_of_parse hl hagain
  obtain ⟨-, rfl⟩ := Prod.mk.inj hparsed
  rw [String.toList_ofList] at hparams hlookup
  rw [(script.mediaType_contentType s.toList).contentType_join, hps] at hlookup
  refine ⟨read, ps, again, hread, hps, hparams, fun key => ?_⟩
  have hkey := hlookup (String.ofList key)
  rw [lookup_map_paramString, lookup_map_paramString, String.toList_ofList] at hkey
  exact Option.map_injective paramValue_injective hkey

theorem names_of_namedParams {m s : List Char} {read : List (List Char × Value)}
    {ps : List (List Char × List Char)} (hread : script.params s = some read)
    (h : namedParams script m read = ps.map textParam) :
    ∀ p ∈ ps, '=' ∉ p.1 ∧ script.lower (strip script.blank p.1) = p.1 := by
  intro p hp
  have hnamed : textParam p ∈ namedParams script m read := h ▸ List.mem_map_of_mem hp
  obtain ⟨q, hq, heq⟩ := List.mem_map.mp (KeyedList.mem_of_mem_ofPairs hnamed)
  obtain ⟨hq, hkept⟩ := List.mem_filter.mp hq
  have hname := script.name_of_params hread q hq (of_decide_eq_true hkept).2
  exact congrArg Prod.fst heq ▸ script.name_lower hname

theorem exists_of_mem_namedParams {m : List Char} {read : List (List Char × Value)}
    {p : List Char × Value} (h : p ∈ namedParams script m read) :
    ∃ q ∈ read, (script.lower q.1, q.2) = p ∧ q.2 ≠ .text [] := by
  obtain ⟨q, hq, heq⟩ := List.mem_map.mp (KeyedList.mem_of_mem_ofPairs h)
  obtain ⟨hq, hkept⟩ := List.mem_filter.mp hq
  exact ⟨q, hq, heq, (of_decide_eq_true hkept).2⟩

section Plain
variable {m : List Char} {read again : List (List Char × Value)}
  {ps : List (List Char × List Char)}

theorem exists_decoded (hequals : '=' ∉ m) (hclosed : Closed m) {qs : List (List Char)}
    (h : script.params (join m qs) = some again) :
    ∃ parts decoded, HeaderParams.parts .start (join m qs) = m :: parts ∧
      parts.flatMap (fun q => ';' :: q) = qs.flatMap (fun q => ';' :: q) ∧
      decodeParams (parts.map script.readParam) = some decoded ∧
      ∀ p ∈ again, p.2 ≠ .text [] → p ∈ decoded := by
  obtain ⟨parts, hparts, hjoin⟩ := parts_join_of_closed hclosed qs
  unfold Script.params at h
  rw [hparts, List.map_cons, Script.readParam_of_notMem hequals] at h
  obtain ⟨decoded, hdecoded, rfl⟩ := Option.map_eq_some_iff.mp h
  refine ⟨parts, decoded, hparts, hjoin, hdecoded, fun p hp hvalue => ?_⟩
  rcases List.mem_cons.mp hp with rfl | hp
  · exact absurd rfl hvalue
  · exact hp

/-- The parts of a header that is read as the content type are its parameters. -/
theorem separate_of_rebuilds (hequals : '=' ∉ m) (hclosed : Closed m) {s : List Char}
    (hread : script.params s = some read) (hnamed : namedParams script m read = ps.map textParam)
    (hagain : script.params (join m (ps.map Script.written)) = some again)
    (hlookup : ∀ key, (namedParams script m again).lookup key =
      (ps.map textParam).lookup key) :
    Separate m (ps.map Script.written) ∧ ∀ p ∈ ps, script.ReadsBack p := by
  have hkept := kept_of_namedParams hnamed
  obtain ⟨parts, decoded, hparts, hjoin, hdecoded, hmem⟩ := exists_decoded hequals hclosed hagain
  have hsubset : ps.map textParam ⊆ decoded.map fun p => (script.lower p.1, p.2) := by
    intro p hp
    have hnodup : ((ps.map textParam).map (·.1)).Nodup := by
      rw [List.map_map]
      exact hkept.nodup
    have hfound := (KeyedList.lookup_eq_some_iff_mem hnodup (k := p.1) (a := p.2)).mpr hp
    rw [← hlookup] at hfound
    obtain ⟨q, hq, heq, hvalue⟩ := exists_of_mem_namedParams (KeyedList.mem_of_lookup hfound)
    exact List.mem_map.mpr ⟨q, hmem q hq hvalue, heq⟩
  obtain ⟨hwritten, hback⟩ := written_of_subset hkept.nodup (names_of_namedParams hread hnamed)
    hkept.value hjoin hdecoded hsubset
  exact ⟨parts_join_iff.mp (hwritten ▸ hparts), hback⟩

theorem name_of_merged {last : List Char × List Char}
    (hlast : '=' ∉ last.1 ∧ script.lower (strip script.blank last.1) = last.1) (rest : List Char) :
    (script.readParam (Script.written last ++ rest)).1 = last.1 := by
  obtain ⟨hequal, hlower⟩ := hlast
  have hspace : '=' ∉ ' ' :: last.1 :=
    fun hmem => (List.mem_cons.mp hmem).elim (by decide) hequal
  have hwritten : Script.written last ++ rest = (' ' :: last.1) ++ '=' :: (last.2 ++ rest) := by
    simp [Script.written]
  rw [hwritten, Script.readParam_append hspace, script.strip_space, hlower]

/-- A charset that is written after quotes that are left open is not read. -/
theorem lookup_charset_eq_none (hequals : '=' ∉ m) (hclosed : Closed m)
    {last : List Char × List Char} (hback : ∀ p ∈ ps ++ [last], script.ReadsBack p)
    (hnames : ∀ p ∈ ps ++ [last], '=' ∉ p.1 ∧ script.lower (strip script.blank p.1) = p.1)
    (hcharset : charsetParam.1 ∉ (ps ++ [last]).map (·.1))
    (hsep : Separate m ((ps ++ [last]).map Script.written))
    (hopen : (Scan.start.run (Script.written last)).quoted = true)
    (hagain : script.params (join m ((ps ++ [last] ++ [charsetParam]).map Script.written)) =
      some again) : (namedParams script m again).lookup charsetParam.1 = none := by
  let merged := Script.written last ++ ';' :: Script.written charsetParam
  have hmerged : parts .start (join m ((ps ++ [last] ++ [charsetParam]).map Script.written)) =
      m :: (ps.map Script.written ++ [merged]) := by
    rw [List.map_append] at hsep
    rw [List.append_assoc, List.map_append, ← parts_join (hsep.merge hopen (by decide))]
    exact congrArg _ join_merge.symm
  obtain ⟨qs, decoded, hparts, -, hdecoded, hmem⟩ := exists_decoded hequals hclosed hagain
  obtain rfl := (List.cons.inj (hparts.symm.trans hmerged)).2
  have hread : ∀ q ∈ (ps.map Script.written ++ [merged]).map script.readParam,
      ∃ p ∈ ps ++ [last], q.1 = p.1 := by
    intro q hq
    obtain ⟨part, hpart, rfl⟩ := List.mem_map.mp hq
    rcases List.mem_append.mp hpart with hpart | hpart
    · obtain ⟨p, hp, rfl⟩ := List.mem_map.mp hpart
      exact ⟨p, List.mem_append_left _ hp, (hback p (List.mem_append_left _ hp)).1⟩
    · obtain rfl := List.mem_singleton.mp hpart
      have hlast := List.mem_append_right ps (List.mem_singleton_self last)
      exact ⟨last, hlast, name_of_merged (hnames last hlast) _⟩
  have hplain := decodeParams_of_plain fun q hq => by
    obtain ⟨p, hp, hqp⟩ := hread q hq
    exact hqp ▸ (hback p hp).2.2
  obtain rfl := Option.some.inj (hdecoded.symm.trans hplain)
  rw [KeyedList.lookup_eq_none_iff_notMem]
  intro hfound
  obtain ⟨named, hnamed, hname⟩ := List.mem_map.mp hfound
  obtain ⟨q, hq, heq, hvalue⟩ := exists_of_mem_namedParams hnamed
  obtain ⟨r, hr, rfl⟩ := List.mem_map.mp (hmem q hq hvalue)
  obtain ⟨p, hp, hrp⟩ := hread r hr
  have hlower : script.lower p.1 = p.1 := by
    rw [← (hnames p hp).2, script.lower_lower]
  refine hcharset (List.mem_map.mpr ⟨p, hp, ?_⟩)
  rw [← hname, ← heq, ← hlower, hrp]

/-- The default charset is read, and then no quotes are open before it. -/
theorem separate_withCharset (hequals : '=' ∉ m) (hclosed : Closed m)
    (hback : ∀ p ∈ ps, script.ReadsBack p)
    (hnames : ∀ p ∈ ps, '=' ∉ p.1 ∧ script.lower (strip script.blank p.1) = p.1)
    (hsep : Separate m (ps.map Script.written))
    (hagain : script.params (join m ((withCharset ps).map Script.written)) = some again)
    (hfound : (namedParams script m again).lookup charsetParam.1 ≠ none) :
    Separate m ((withCharset ps).map Script.written) := by
  unfold withCharset at hagain ⊢
  by_cases hcharset : charsetParam.1 ∈ ps.map (·.1)
  · rw [if_pos hcharset]
    exact hsep
  · rw [if_neg hcharset] at hagain ⊢
    rcases List.eq_nil_or_concat' ps with rfl | ⟨init, last, rfl⟩
    · exact ⟨hclosed, by decide⟩
    · cases hopen : (Scan.start.run (Script.written last)).quoted with
      | true =>
        exact absurd (lookup_charset_eq_none hequals hclosed hback hnames hcharset hsep hopen
          hagain) hfound
      | false =>
        have hwhole : Whole .start (Script.written charsetParam) := by decide
        rw [List.map_append] at hsep
        rw [List.append_assoc, List.map_append]
        exact hsep.concat hopen hwhole

end Plain

def defaultContent (m : List Char) (ps : List (List Char × List Char)) : Content :=
  ⟨String.ofList m, ((ps ++ [charsetParam]).map textParam).map paramString, "body"⟩

theorem charset_defaultContent (hcharset : charsetParam.1 ∉ ps.map (·.1)) :
    (defaultContent m ps).charset = .ok "utf-8" := by
  have hnone : (ps.map textParam).lookup charsetParam.1 = none := by
    rw [KeyedList.lookup_eq_none_iff_notMem, List.map_map]
    exact hcharset
  have hfound : ((ps ++ [charsetParam]).map textParam).lookup charsetParam.1 =
      some (.text charsetParam.2) := by
    rw [List.map_append, List.lookup_append, hnone]
    rfl
  have hlookup : (defaultContent m ps).options.lookup "charset" = some (.text "utf-8") :=
    (lookup_map_paramString _ "charset").trans (congrArg (Option.map paramValue) hfound)
  unfold Content.charset
  rw [hlookup]

theorem header_defaultContent (m : List Char) (ps : List (List Char × List Char)) :
    buildContentTypeHeader (defaultContent m ps).mimetype (defaultContent m ps).options =
      .ok (String.ofList (join m ((ps ++ [charsetParam]).map Script.written))) :=
  buildContentTypeHeader_texts _ _

theorem renderContent_plainBody (hl : libs.ReadsHeaders script) {s : String}
    {read : List (List Char × Value)} {ps : List (List Char × List Char)}
    (hread : script.params s.toList = some read)
    (hnamed : namedParams script (script.contentType s.toList) read = ps.map textParam)
    (hcharset : charsetParam.1 ∉ ps.map (·.1)) (values : List (String × Json)) (json : Json) :
    renderContent libs (plainBody s) values json =
      .ok (defaultContent (script.contentType s.toList) ps) := by
  have hdefault : withCharset ps = ps ++ [charsetParam] := if_neg hcharset
  have hparse := parseContentType_eq hl hread
  rw [hnamed] at hparse
  have htext : (libs.render "body" values).mapError RunError.library = .ok "body" := by
    rw [hl.render]
    rfl
  unfold renderContent
  rw [show truthy (plainBody s).body = some "body" from rfl]
  dsimp only
  rw [show (plainBody s).contentType.getD "text/plain" = s from rfl, Except.bind_of_eq_ok hparse]
  dsimp only
  rw [setdefault_charset, hdefault, Except.bind_of_eq_ok htext]
  rfl

theorem exists_requestArgs (hl : libs.ReadsHeaders script) {s : String}
    {read : List (List Char × Value)} {ps : List (List Char × List Char)}
    (hread : script.params s.toList = some read)
    (hnamed : namedParams script (script.contentType s.toList) read = ps.map textParam)
    (hcharset : charsetParam.1 ∉ ps.map (·.1)) :
    ∃ args, requestArgs libs (plainBody s) none someEvent = .ok (some args) ∧
      args.contentType = String.ofList (join (script.contentType s.toList)
        ((ps ++ [charsetParam]).map Script.written)) := by
  obtain ⟨data, hdata⟩ := hl.encode
  have hencode : (defaultContent (script.contentType s.toList) ps).encode libs = .ok data := by
    unfold Content.encode
    rw [Except.bind_of_eq_ok (charset_defaultContent hcharset)]
    change (libs.encode "body" "utf-8").mapError _ = _
    rw [hdata]
    rfl
  have hurl : ∀ values, (libs.render (plainBody s).url values).mapError RunError.library =
      .ok "body" := by
    intro values
    rw [show (plainBody s).url = "body" from rfl, hl.render]
    rfl
  refine ⟨⟨"post", "body", data, .unset, _⟩, ?_, rfl⟩
  unfold requestArgs
  rw [Except.bind_of_eq_ok (show templateValues someEvent = .ok _ from rfl),
    Except.bind_of_eq_ok (hurl _)]
  rw [Except.bind_of_eq_ok (show refusesUrl libs none "body" = .ok false from rfl)]
  simp only [Bool.false_eq_true, if_false]
  rw [Except.bind_of_eq_ok (show getItem someEvent "data" = .ok _ from rfl),
    Except.bind_of_eq_ok (renderContent_plainBody hl hread hnamed hcharset _ _),
    Except.bind_of_eq_ok hencode, Except.bind_of_eq_ok (header_defaultContent _ _)]
  rfl

/-- What a content type with a plain media type says is sent if and only if it can be rebuilt;
with any media type, it is sent if it can. -/
theorem keeps_iff_rebuildable (hl : libs.ReadsHeaders script) (s : String) :
    (Rebuildable script s.toList → Keeps libs s) ∧
      ('=' ∉ script.contentType s.toList ∧ Closed (script.contentType s.toList) →
        (Keeps libs s ↔ Rebuildable script s.toList)) := by
  have hsufficient : Rebuildable script s.toList → Keeps libs s := fun h =>
    ⟨rebuilds_of_rebuildable hl h, fun _ _ _ _ hs hargs => labelsBody_of_rebuildable hl h hs hargs⟩
  refine ⟨hsufficient, fun ⟨hequals, hclosed⟩ => ⟨fun ⟨hrebuilds, hlabels⟩ => ?_, hsufficient⟩⟩
  obtain ⟨read, ps, again, hread, hnamed, hagain, hlookup⟩ := exists_read_of_rebuilds hl hrebuilds
  obtain ⟨hsep, hback⟩ := separate_of_rebuilds hequals hclosed hread hnamed hagain hlookup
  have hadds : AddsNone script (script.contentType s.toList) ps := by
    left
    rw [Script.readParam_of_notMem hequals]
    rfl
  refine ⟨read, ps, hread, hnamed, ?_, hback, hadds⟩
  by_cases hcharset : charsetParam.1 ∈ ps.map (·.1)
  · rw [withCharset, if_pos hcharset]
    exact hsep
  · obtain ⟨args, hargs, htype⟩ := exists_requestArgs hl hread hnamed hcharset
    obtain ⟨_, _, _, charset, _, reread, -, -, -, -, -, hparse, hfound⟩ :=
      hlabels _ _ _ _ rfl hargs
    have hdefault : withCharset ps = ps ++ [charsetParam] := if_neg hcharset
    obtain ⟨sent, hsent, hparsed⟩ := exists_params_of_parse hl hparse
    obtain ⟨-, rfl⟩ := Prod.mk.inj hparsed
    rw [htype, String.toList_ofList] at hsent
    rw [htype, String.toList_ofList, (script.mediaType_contentType s.toList).contentType_join,
      lookup_map_paramString] at hfound
    refine separate_withCharset hequals hclosed hback (names_of_namedParams hread hnamed) hsep
      (hdefault ▸ hsent) fun hnone => ?_
    rw [show "charset".toList = charsetParam.1 from rfl, hnone] at hfound
    cases hfound

end Spec

theorem toLower_cases (c : Char) : c.toLower = c ∨
    65 ≤ c.toNat ∧ c.toNat ≤ 90 ∧ c.toLower.toNat = c.toNat + 32 := by
  unfold Char.toLower
  split_ifs with h
  · right
    simp only [ge_iff_le, UInt32.le_iff_toNat_le, Char.reduceVal, UInt32.reduceToNat] at h
    have hn : c.toNat = c.val.toNat := rfl
    refine ⟨by omega, by omega, ?_⟩
    change (c.val + 32).toNat = c.toNat + 32
    have hshift : (32 : UInt32).toNat = 32 := rfl
    rw [UInt32.toNat_add, hshift]
    omega
  · exact .inl rfl

theorem toLower_eq_self {c : Char} (h : c.toNat < 65 ∨ 90 < c.toNat) : c.toLower = c := by
  rcases toLower_cases c with hc | ⟨h1, h2, -⟩
  · exact hc
  · omega

theorem isSpace_toLower (c : Char) : isSpace c.toLower = isSpace c := by
  rcases toLower_cases c with hc | ⟨h1, h2, h3⟩
  · rw [hc]
  · unfold isSpace
    rw [h3]
    simp only [decide_eq_decide]
    omega

theorem strip_map_toLower (s : List Char) :
    strip isSpace (s.map Char.toLower) = (strip isSpace s).map Char.toLower := by
  have hspace : isSpace ∘ Char.toLower = isSpace := funext isSpace_toLower
  unfold strip List.rdropWhile
  rw [List.dropWhile_map, hspace, ← List.map_reverse, List.dropWhile_map, hspace,
    ← List.map_reverse]

/-- The blanks of Python, and the lower case of the letters of ASCII. -/
def asciiScript : Script where
  blank := isSpace
  lower := List.map Char.toLower
  size c := if isSpace c then 0 else 1
  blank_space := by decide
  not_blank c h h' := by
    simp only [isSpace, decide_eq_false_iff_not]
    omega
  lower_lower s := by
    rw [List.map_map]
    refine List.map_congr_left fun c _ => ?_
    rcases toLower_cases c with hc | ⟨h1, h2, h3⟩
    · rw [Function.comp_apply, hc, hc]
    · exact toLower_eq_self (by omega)
  lower_of_ascii s h := by
    refine (List.map_congr_left fun c hc => ?_).trans (List.map_id s)
    rcases toLower_cases c with heq | ⟨h1, h2, -⟩
    · exact heq
    · refine absurd ?_ (h c hc).2
      simp only [Char.isUpper, ge_iff_le, UInt32.le_iff_toNat_le, Char.reduceVal,
        UInt32.reduceToNat, decide_eq_true_eq]
      exact ⟨h1, h2⟩
  strip_lower s := by
    rw [strip_map_toLower, strip_strip]
  mem_of_mem_lower s c hc h := by
    obtain ⟨d, hd, rfl⟩ := List.mem_map.mp h
    rcases toLower_cases d with heq | ⟨h1, h2, h3⟩
    · rwa [heq]
    · have hsmall : ∀ c ∈ [';', '='], c.toNat < 97 := forall_mem_of_all (by decide)
      have := hsmall _ hc
      omega
  size_eq_zero_iff c := by simp
  size_lower_le s := by
    rw [List.map_map]
    refine le_of_eq (congrArg List.sum (List.map_congr_left fun c _ => ?_))
    simp [isSpace_toLower]

def HttpLibraries.reading : HttpLibraries :=
  { HttpLibraries.plain with
    lower := fun s => String.ofList (asciiScript.lower s.toList)
    getContentType := fun s => String.ofList (asciiScript.contentType s.toList)
    getParams := fun s =>
      match asciiScript.params s.toList with
      | none => .error "'<' not supported between instances of 'int' and 'NoneType'"
      | some read => .ok (read.map paramString) }

theorem HttpLibraries.readsHeaders_reading : HttpLibraries.reading.ReadsHeaders asciiScript where
  lower _ := rfl
  getContentType _ := rfl
  getParams s read h := by
    simp only [HttpLibraries.reading, h]
  getParams_error s h := by
    simp only [HttpLibraries.reading, h]
    exact ⟨_, rfl⟩
  render _ := rfl
  encode := ⟨_, rfl⟩

/-- A content type that is kept, and can be rebuilt. -/
theorem keeps_iff_rebuildable_charset :
    Keeps .reading "TEXT/html; CHarSeT=utf-8" ∧
      Rebuildable asciiScript "TEXT/html; CHarSeT=utf-8".toList := by
  have hrebuildable : Rebuildable asciiScript "TEXT/html; CHarSeT=utf-8".toList :=
    ⟨[("TEXT/html".toList, .text []), ("charset".toList, .text "utf-8".toList)], [charsetParam],
      by decide, by decide, by decide, by decide, .inl (by decide)⟩
  have hkeeps := (keeps_iff_rebuildable HttpLibraries.readsHeaders_reading _).1 hrebuildable
  exact ⟨hkeeps, ((keeps_iff_rebuildable HttpLibraries.readsHeaders_reading _).2
    ⟨by decide, by decide⟩).mp hkeeps⟩

/-- A charset that cannot be written, a title that is cut, and a charset that is not read. -/
theorem contentType_not_kept :
    (∃ mimetype options,
      parseContentType .reading "text/plain; charset*=utf-8''x" = .ok (mimetype, options) ∧
        buildContentTypeHeader mimetype options = .error .typeError) ∧
    ¬ Rebuilds .reading "text/plain; title=\"a;b\"" ∧
    let options := plainBody "text/plain; title=\"\\\"\"; charset=iso-8859-1"
    ∃ args, requestArgs .reading options none someEvent = .ok (some args) ∧
      ¬ LabelsBody .reading options someEvent args := by
  have htitle : ¬ Rebuilds .reading "text/plain; title=\"a;b\"" := by
    rintro ⟨mimetype, options, header, read, hparse, hbuild, hagain, hlookup⟩
    obtain ⟨rfl, rfl⟩ : "text/plain" = mimetype ∧ [("title", .text "a;b")] = options :=
      Prod.mk.inj (Except.ok.inj hparse)
    obtain rfl : "text/plain; title=a;b" = header := Except.ok.inj hbuild
    obtain ⟨-, rfl⟩ : "text/plain" = "text/plain" ∧ [("title", .text "a")] = read :=
      Prod.mk.inj (Except.ok.inj hagain)
    exact absurd (ParamValue.text.inj (Option.some.inj (hlookup "title"))) (by decide)
  refine ⟨⟨_, _, rfl, rfl⟩, htitle, ⟨_, _, _, _, _⟩, rfl, ?_⟩
  rintro ⟨-, -, -, charset, mimetype, read, -, -, -, -, -, hparse, hfound⟩
  obtain ⟨-, rfl⟩ : "text/plain" = mimetype ∧
      [("title", .text "\"; charset=iso-8859-1")] = read := Prod.mk.inj (Except.ok.inj hparse)
  cases hfound

end WazoWebhookd

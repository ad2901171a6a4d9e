import WazoWebhookd.Subscription.AdminEndpoints
import WazoWebhookd.Library.Dictionary

/-! The search by metadata: a count of keys that says for all. -/
namespace WazoWebhookd
open Failing SubscriptionService

/-- The count of the metadata subquery is met when every key searched for has its row. -/
theorem matchesMetadata_iff {searchMetadata : SearchMetadata} {s : Subscription} :
    MatchesMetadata searchMetadata s ↔ ∀ key value, searchMetadata.lookup key = some value →
      ⟨key, some value⟩ ∈ s.metadataRel := by
  unfold MatchesMetadata
  set found := s.metadataRel.filter fun m =>
    m.key ∈ searchMetadata ∧ m.value = searchMetadata.lookup m.key with hfound
  have hmem : ∀ key, key ∈ (found.map (·.key)).toFinset ↔
      ∃ value, searchMetadata.lookup key = some value ∧ ⟨key, some value⟩ ∈ s.metadataRel := by
    intro key
    simp only [List.mem_toFinset, List.mem_map, hfound, List.mem_filter, decide_eq_true_eq]
    constructor
    · rintro ⟨⟨key, value⟩, ⟨hrel, hkey, hvalue⟩, rfl⟩
      obtain ⟨v, hv⟩ := Finmap.mem_iff.mp hkey
      dsimp only at hvalue hv
      rw [hvalue, hv] at hrel
      exact ⟨v, hv, hrel⟩
    · rintro ⟨value, hvalue, hrel⟩
      exact ⟨_, ⟨hrel, Finmap.mem_of_lookup_eq_some hvalue, hvalue.symm⟩, rfl⟩
  have hsub : (found.map (·.key)).toFinset ⊆ searchMetadata.keys := by
    intro key hkey
    obtain ⟨value, hvalue, -⟩ := (hmem key).mp hkey
    exact Finmap.mem_keys.mpr (Finmap.mem_of_lookup_eq_some hvalue)
  rw [← List.card_toFinset]
  constructor
  · intro hcard key value hvalue
    have hall := Finset.eq_of_subset_of_card_le hsub hcard.ge
    have hkey : key ∈ (found.map (·.key)).toFinset :=
      hall ▸ Finmap.mem_keys.mpr (Finmap.mem_of_lookup_eq_some hvalue)
    obtain ⟨value', hvalue', hrel⟩ := (hmem key).mp hkey
    obtain rfl := Option.some.inj (hvalue.symm.trans hvalue')
    exact hrel
  · intro hall
    refine congrArg Finset.card (Finset.Subset.antisymm hsub fun key hkey => ?_)
    obtain ⟨value, hvalue⟩ := Finmap.mem_iff.mp (Finmap.mem_keys.mp hkey)
    exact (hmem key).mpr ⟨value, hvalue, hall key value hvalue⟩

def searches (args : List (String × String)) : List String :=
  (args.filter fun p => p.1 = "search_metadata").map (·.2)

/-- The text is a key, a colon and a value, and the colon is the first one. -/
structure SearchTerm (search key value : String) : Prop where
  colon_notMem : ':' ∉ key.toList
  eq : search = key ++ ":" ++ value

theorem splitColon_eq_some {search key value : String} :
    splitColon search = some (key, value) ↔ SearchTerm search key value := by
  have htail : ∀ rest, ((":" : String) ++ rest).toList = ':' :: rest.toList := by simp
  unfold splitColon
  rw [List.span_eq_takeWhile_dropWhile]
  constructor
  · intro h
    split at h
    · cases h
    · rename_i before c after hspan
      obtain ⟨rfl, hdrop⟩ := Prod.mk.inj hspan
      obtain ⟨rfl, rfl⟩ := Prod.mk.inj (Option.some.inj h)
      have hc : c = ':' := by
        have hhead := List.head?_dropWhile_not (fun c => decide (c ≠ ':')) search.toList
        rw [hdrop] at hhead
        simpa using hhead
      subst hc
      refine ⟨?_, ?_⟩
      · rw [String.toList_ofList]
        intro hmem
        simpa using List.all_eq_true.mp List.all_takeWhile ':' hmem
      · apply String.ext
        rw [String.append_assoc, String.toList_append, htail, String.toList_ofList,
          String.toList_ofList, ← hdrop, List.takeWhile_append_dropWhile]
  · rintro ⟨hkey, rfl⟩
    have hbefore : ∀ c ∈ key.toList, decide (c ≠ ':') = true := by
      intro c hc
      refine decide_eq_true ?_
      rintro rfl
      exact hkey hc
    rw [String.append_assoc, String.toList_append, htail, List.takeWhile_append_of_pos hbefore,
      List.dropWhile_append_of_pos hbefore]
    simp

theorem aggregateSearchMetadata_eq (args : List (String × String)) :
    aggregateSearchMetadata args = ((searches args).filterMap splitColon).foldl
      (fun metadata p => metadata.insert p.1 p.2) ∅ := by
  rw [searches, List.filterMap_map]
  rfl

/-- The parameters with a colon have distinct keys. -/
def DistinctKeys (args : List (String × String)) : Prop :=
  (searches args).Pairwise fun search search' => ∀ key value key' value',
    SearchTerm search key value → SearchTerm search' key' value' → key ≠ key'

theorem nodup_keys_of_distinctKeys {args : List (String × String)} (h : DistinctKeys args) :
    (((searches args).filterMap splitColon).map (·.1)).Nodup := by
  rw [List.Nodup, List.pairwise_map, List.pairwise_filterMap]
  refine h.imp ?_
  rintro search search' hterms ⟨key, value⟩ hterm ⟨key', value'⟩ hterm'
  exact hterms key value key' value' (splitColon_eq_some.mp hterm) (splitColon_eq_some.mp hterm')

/-- The subscription has a metadata row for every parameter that has a colon. -/
def HasAll (args : List (String × String)) (s : Subscription) : Prop :=
  ∀ search ∈ searches args, ∀ key value, SearchTerm search key value →
    ⟨key, some value⟩ ∈ s.metadataRel

theorem matchesMetadata_aggregate {args : List (String × String)} (h : DistinctKeys args)
    {s : Subscription} : MatchesMetadata (aggregateSearchMetadata args) s ↔ HasAll args s := by
  have hn := nodup_keys_of_distinctKeys h
  rw [matchesMetadata_iff, aggregateSearchMetadata_eq]
  simp only [Finmap.lookup_foldl_insert hn, KeyedList.lookup_eq_some_iff_mem hn,
    List.mem_filterMap, splitColon_eq_some]
  constructor
  · exact fun hall search hsearch key value hterm => hall key value ⟨search, hsearch, hterm⟩
  · rintro hall key value ⟨search, hsearch, hterm⟩
    exact hall search hsearch key value hterm

theorem hasAll_of_empty {args : List (String × String)} (h : DistinctKeys args)
    (hempty : aggregateSearchMetadata args = ∅) (s : Subscription) : HasAll args s := by
  rw [← matchesMetadata_aggregate h, matchesMetadata_iff, hempty]
  intro key value hvalue
  rw [Finmap.lookup_empty] at hvalue
  cases hvalue

theorem searchMetadata_of_load {mallow : Mallow} {args : List (String × String)}
    {params : SubscriptionListParams} (h : loadListParams mallow args = .ok params) :
    params.searchMetadata = aggregateSearchMetadata args := by
  unfold loadListParams at h
  cases hr : args.lookup "recurse" with
  | none =>
    rw [hr] at h
    cases h
    rfl
  | some recurse =>
    rw [hr] at h
    obtain ⟨_, -, hp⟩ := Except.exists_of_bind_eq_ok (x := mallow.boolean recurse) h
    cases hp
    rfl

theorem exec_list_searches {args : List (String × String)} (h : DistinctKeys args)
    {tenantUuids : List String} (hne : tenantUuids ≠ []) (w : World) :
    ∃ subscriptions, exec (SubscriptionService.list none tenantUuids none none
        (aggregateSearchMetadata args)) w = (.ok subscriptions, w) ∧
      subscriptions.Sublist w.database ∧
      ∀ s, s ∈ subscriptions ↔
        s ∈ w.database ∧ s.ownerTenantUuid ∈ tenantUuids ∧ HasAll args s := by
  refine ⟨_, (exec_list ..).trans (if_neg nofun), List.filter_sublist, fun s => ?_⟩
  rw [List.mem_filter, decide_eq_true_iff]
  refine and_congr_right fun _ => ?_
  simp only [Visible, truthy_none, Option.isSome_none, Bool.false_eq_true, false_imp_iff,
    and_true, true_and, matchesMetadata_aggregate h]
  refine and_congr (imp_iff_right hne) ⟨fun hmatch => ?_, fun hall _ => hall⟩
  by_cases hempty : aggregateSearchMetadata args = ∅
  · exact hasAll_of_empty h hempty s
  · exact hmatch hempty

/-- The list of an administrator's request: the subscriptions of the visible tenants that have
the metadata of every parameter, in the order of the database. -/
theorem search_is_forall (mallow : AdminMallow) (access : Access) {args : List (String × String)}
    (h : DistinctKeys args) {params : SubscriptionListParams}
    (hparams : loadListParams mallow.toMallow args = .ok params) {tenantUuids : List String}
    (hvisible : access.visibleTenants params.recurse = .ok tenantUuids) (hne : tenantUuids ≠ [])
    (w : World) :
    ∃ subscriptions : List Subscription,
      exec (SubscriptionsResource.get mallow none access args) w =
        (.ok (.items (subscriptions.map dump) subscriptions.length), w) ∧
      subscriptions.Sublist w.database ∧
      ∀ s, s ∈ subscriptions ↔
        s ∈ w.database ∧ s.ownerTenantUuid ∈ tenantUuids ∧ HasAll args s := by
  obtain ⟨subscriptions, hlist, hsub, hmem⟩ := exec_list_searches h hne w
  rw [← searchMetadata_of_load hparams] at hlist
  refine ⟨subscriptions, ?_, hsub, hmem⟩
  unfold SubscriptionsResource.get
  rw [hparams, exec_bind_of_ok (exec_raising_of_ok _ (exec_ofExcept _ w)), hvisible,
    exec_bind_of_ok (exec_raising_of_ok _ (exec_ofExcept _ w)),
    exec_bind_of_ok (exec_raising_of_ok _ hlist)]
  rfl

/-- A key with two rows, and a parameter that has a colon in its value. -/
theorem search_is_forall_url :
    let found := { Subscription.blank "a" "tenant" with
      metadataRel := [⟨"url", some "http://a"⟩, ⟨"url", some "b"⟩, ⟨"kind", none⟩] }
    let other := { Subscription.blank "b" "tenant" with metadataRel := [⟨"url", some "b"⟩] }
    let w : World := ⟨[found, other], .init "headers", [], []⟩
    let args := [("search_metadata", "url:http://a"), ("search_metadata", "kind"),
      ("recurse", "true")]
    ∃ subscriptions : List Subscription,
      exec (SubscriptionsResource.get AdminMallow.plain none ⟨.ok "tenant", fun t => .ok [t]⟩ args)
        w = (.ok (.items (subscriptions.map dump) subscriptions.length), w) ∧
      found ∈ subscriptions ∧ other ∉ subscriptions := by
  intro found other w args
  have hurl : ∀ {key value}, SearchTerm "url:http://a" key value ↔
      key = "url" ∧ value = "http://a" := by
    intro key value
    have hsplit : splitColon "url:http://a" = some ("url", "http://a") := by decide
    rw [← splitColon_eq_some, hsplit]
    simp [eq_comm]
  have hkind : ∀ {key value}, ¬ SearchTerm "kind" key value := by
    intro key value
    have hsplit : splitColon "kind" = none := by decide
    rw [← splitColon_eq_some, hsplit]
    exact nofun
  have hdistinct : DistinctKeys args :=
    List.pairwise_pair.mpr fun key value key' value' _ hterm => absurd hterm hkind
  obtain ⟨subscriptions, hget, -, hmem⟩ := search_is_forall AdminMallow.plain
    ⟨.ok "tenant", fun t => .ok [t]⟩ hdistinct rfl rfl (by simp) w
  refine ⟨subscriptions, hget, (hmem found).mpr ⟨by simp [w], by decide, ?_⟩, fun hother => ?_⟩
  · intro search hsearch key value hterm
    have hcases : search = "url:http://a" ∨ search = "kind" := by
      simpa [searches, args] using hsearch
    rcases hcases with rfl | rfl
    · obtain ⟨rfl, rfl⟩ := hurl.mp hterm
      simp [found]
    · exact absurd hterm hkind
  · have hall := ((hmem other).mp hother).2.2 "url:http://a" (by simp [searches, args]) "url"
      "http://a" (hurl.mpr ⟨rfl, rfl⟩)
    simp [other] at hall

end WazoWebhookd

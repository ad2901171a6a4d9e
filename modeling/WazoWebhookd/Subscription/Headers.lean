import WazoWebhookd.Subscription.BusEventHandler

/-! What the headers of a subscription contain, before and after the rewriting for the
global voicemail event. -/
namespace WazoWebhookd

theorem ne_userKey {k : String} (h : ¬ startswith k "user_uuid:") (u : String) :
    "user_uuid:" ++ u ≠ k := by
  intro hk
  rw [← hk] at h
  exact h (startswith_append _ _)

/-- The last `update` of a key decides. -/
private theorem lookup_buildHeaders_chain (master : String) (s : Subscription) (k : String) :
    (buildHeaders master s).lookup k =
      if (truthy s.eventsWazoUuid).isSome ∧ k = "origin_uuid" then
        (truthy s.eventsWazoUuid).map .str
      else if (truthy s.eventsUserUuid).map ("user_uuid:" ++ ·) = some k then some (.bool true)
      else if s.ownerTenantUuid ≠ master ∧ k = "tenant_uuid" then some (.str s.ownerTenantUuid)
      else if k = "x-subscription" then some (.str s.uuid) else none := by
  unfold buildHeaders
  by_cases hm : s.ownerTenantUuid = master <;> cases truthy s.eventsUserUuid <;>
    cases truthy s.eventsWazoUuid <;>
    simp [hm, Finmap.lookup_insert_ite, Finmap.lookup_singleton_ite, eq_comm]

/-- Every key of `_build_headers`. -/
theorem lookup_buildHeaders (master : String) (s : Subscription) (k : String) :
    (buildHeaders master s).lookup k =
      if k = "x-subscription" then some (.str s.uuid)
      else if k = "tenant_uuid" then
        if s.ownerTenantUuid = master then none else some (.str s.ownerTenantUuid)
      else if k = "origin_uuid" then (truthy s.eventsWazoUuid).map .str
      else if (truthy s.eventsUserUuid).map ("user_uuid:" ++ ·) = some k
        then some (.bool true) else none := by
  rw [lookup_buildHeaders_chain]
  have hx := ne_userKey (k := "x-subscription") (by decide)
  have ht := ne_userKey (k := "tenant_uuid") (by decide)
  have ho := ne_userKey (k := "origin_uuid") (by decide)
  by_cases h1 : k = "x-subscription"
  · subst h1
    simp [hx]
  by_cases h2 : k = "tenant_uuid"
  · subst h2
    simp [ht]
  by_cases h3 : k = "origin_uuid"
  · subst h3
    cases truthy s.eventsWazoUuid <;> simp [ho]
  simp [h1, h2, h3]

theorem lookup_buildHeaders_subscription (master : String) (s : Subscription) :
    (buildHeaders master s).lookup "x-subscription" = some (.str s.uuid) := by
  rw [lookup_buildHeaders, if_pos rfl]

theorem name_notMem_buildHeaders (master : String) (s : Subscription) :
    "name" ∉ buildHeaders master s := by
  have hn := ne_userKey (k := "name") (by decide)
  rw [← Finmap.lookup_eq_none, lookup_buildHeaders]
  simp [hn]

/-- The headers with which the global voicemail event is subscribed. -/
def rewriteUserHeaders (headers : Headers) : Headers :=
  handleTenantEvents globalVoicemailMessageCreated headers

theorem handleTenantEvents_of_ne {event : String} (h : event ≠ globalVoicemailMessageCreated)
    (headers : Headers) : handleTenantEvents event headers = headers := by
  rw [handleTenantEvents, if_neg h]

theorem lookup_rewriteUserHeaders (headers : Headers) (k : String) :
    (rewriteUserHeaders headers).lookup k =
      if k = "user_uuid:*" then some (.bool true)
      else if startswith k "user_uuid:" then none else headers.lookup k := by
  rw [rewriteUserHeaders, handleTenantEvents, if_pos rfl, Finmap.lookup_insert_ite]
  by_cases hs : startswith k "user_uuid:" <;> simp [hs]

/-- The rewriting touches no other key than those of users. -/
theorem lookup_rewriteUserHeaders_of_not {k : String} (h : ¬ startswith k "user_uuid:")
    (headers : Headers) : (rewriteUserHeaders headers).lookup k = headers.lookup k := by
  have hk : k ≠ "user_uuid:*" := (ne_userKey h "*").symm
  rw [lookup_rewriteUserHeaders, if_neg hk, if_neg h]

theorem lookup_handleTenantEvents_of_not {k : String} (h : ¬ startswith k "user_uuid:")
    (event : String) (headers : Headers) :
    (handleTenantEvents event headers).lookup k = headers.lookup k := by
  by_cases he : event = globalVoicemailMessageCreated
  · subst he
    exact lookup_rewriteUserHeaders_of_not h headers
  · rw [handleTenantEvents_of_ne he]

@[simp] theorem rewriteUserHeaders_idem (headers : Headers) :
    rewriteUserHeaders (rewriteUserHeaders headers) = rewriteUserHeaders headers := by
  apply Finmap.ext_lookup
  intro k
  simp only [lookup_rewriteUserHeaders]
  split_ifs <;> rfl

/-- Rewriting changes the headers of every subscription but one for the user `*`. -/
theorem rewriteUserHeaders_buildHeaders_eq_iff (master : String) (s : Subscription) :
    rewriteUserHeaders (buildHeaders master s) = buildHeaders master s ↔
      s.eventsUserUuid = some "*" := by
  have hstar : (buildHeaders master s).lookup "user_uuid:*" =
      if truthy s.eventsUserUuid = some "*" then some (.bool true) else none := by
    rw [lookup_buildHeaders]
    have hi : ∀ u : String, "user_uuid:" ++ u = "user_uuid:*" ↔ u = "*" := by
      intro u
      rw [show "user_uuid:*" = "user_uuid:" ++ "*" from rfl]
      exact String.append_right_inj "user_uuid:"
    cases truthy s.eventsUserUuid <;> simp [hi]
  have ht : truthy s.eventsUserUuid = some "*" ↔ s.eventsUserUuid = some "*" := by
    unfold truthy
    split <;> simp_all
  constructor
  · intro h
    have hl := congrArg (Finmap.lookup "user_uuid:*") h
    rw [hstar, lookup_rewriteUserHeaders, if_pos rfl] at hl
    by_contra hs
    rw [if_neg (mt ht.mp hs)] at hl
    cases hl
  · intro h
    apply Finmap.ext_lookup
    intro k
    rw [lookup_rewriteUserHeaders]
    by_cases hk : k = "user_uuid:*"
    · subst hk
      rw [if_pos rfl, hstar, if_pos (ht.mpr h)]
    · rw [if_neg hk]
      by_cases hs : startswith k "user_uuid:"
      · have h1 : k ≠ "x-subscription" := by rintro rfl; revert hs; decide
        have h2 : k ≠ "tenant_uuid" := by rintro rfl; revert hs; decide
        have h3 : k ≠ "origin_uuid" := by rintro rfl; revert hs; decide
        rw [if_pos hs, lookup_buildHeaders, if_neg h1, if_neg h2, if_neg h3, ht.mpr h]
        simpa [eq_comm] using hk
      · rw [if_neg hs]

/-- The headers of two bindings of one event are compared by their arguments. -/
theorem bindingOf_inj {event : String} {h₁ h₂ : Headers} (hn₁ : "name" ∉ h₁)
    (hn₂ : "name" ∉ h₂) : bindingOf event h₁ = bindingOf event h₂ ↔ h₁ = h₂ := by
  constructor
  · intro h
    exact Finmap.insert_right_cancel hn₁ hn₂ (congrArg Binding.arguments h)
  · rintro rfl
    rfl

end WazoWebhookd

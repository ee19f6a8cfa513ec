import Gomer.Billing.Webhook

/-! What each handler does to the one row of a subscription. -/
namespace Gomer

open Relational

section
variable {t : Subscriptions} {id : String} {workspaceId : Uuid}

theorem findByStripeId_iff {row : Subscription} :
    findByStripeId t id = some row ↔ row ∈ t.rows ∧ row.stripeSubscriptionId = id :=
  find_unique_iff t.stripeKey

theorem findForWorkspace_iff {row : Subscription} :
    findForWorkspace t workspaceId = some row ↔ row ∈ t.rows ∧ row.workspaceId = workspaceId :=
  find_unique_iff t.workspaceKey

theorem findByStripeId_none_iff :
    findByStripeId t id = none ↔ id ∉ t.rows.map (·.stripeSubscriptionId) := by
  simp [findByStripeId]

theorem findForWorkspace_none_iff :
    findForWorkspace t workspaceId = none ↔ workspaceId ∉ t.rows.map (·.workspaceId) := by
  simp [findForWorkspace]

theorem ofRows_ok {rows : List Subscription} (ids : (rows.map (·.id)).Nodup)
    (workspaces : (rows.map (·.workspaceId)).Nodup)
    (stripes : (rows.map (·.stripeSubscriptionId)).Nodup) :
    Subscriptions.ofRows rows = .ok ⟨rows, ids, workspaces, stripes⟩ :=
  dif_pos ⟨ids, workspaces, stripes⟩

end

section
variable {t : Subscriptions} {workspaceId : Uuid} {planId id : String} {stripe : StripeSubscription}

theorem syncFromStripe_insert {period : Instant × Instant} (absent : findByStripeId t id = none)
    (vacant : findForWorkspace t workspaceId = none)
    (current : subscriptionPeriod stripe = some period) :
    ∃ next rowId, syncFromStripe t workspaceId planId id stripe = .ok next ∧
      findByStripeId next id =
        some (createSubscription workspaceId planId id stripe rowId 0 period) := by
  let row := createSubscription workspaceId planId id stripe (freshId (t.rows.map (·.id))) 0 period
  have grows : ∀ {κ : Type} (key : Subscription → κ), (t.rows.map key).Nodup →
      key row ∉ t.rows.map key → ((t.rows ++ [row]).map key).Nodup := by
    intro κ key unique free
    rw [List.map_append]
    apply List.nodup_append_comm.mp
    exact List.nodup_cons.mpr ⟨free, unique⟩
  have ids := grows (·.id) t.idKey (freshId_notMem _)
  have workspaces := grows (·.workspaceId) t.workspaceKey (findForWorkspace_none_iff.mp vacant)
  have stripes := grows (·.stripeSubscriptionId) t.stripeKey (findByStripeId_none_iff.mp absent)
  refine ⟨⟨_, ids, workspaces, stripes⟩, row.id, ?_, ?_⟩
  · simp only [syncFromStripe, absent, current]
    rw [ofRows_ok ids workspaces stripes]
    rfl
  · apply findByStripeId_iff.mpr
    exact ⟨List.mem_append_right _ List.mem_cons_self, rfl⟩

/-- A workspace with another subscription on it refuses a second row. -/
theorem syncFromStripe_refused (absent : findByStripeId t id = none)
    (taken : findForWorkspace t workspaceId ≠ none) :
    ∃ e, syncFromStripe t workspaceId planId id stripe = .error e := by
  cases current : subscriptionPeriod stripe with
  | none =>
    simp only [syncFromStripe, absent, current]
    exact ⟨_, rfl⟩
  | some period =>
    have member : workspaceId ∈ t.rows.map (·.workspaceId) := by
      by_contra free
      exact taken (findForWorkspace_none_iff.mpr free)
    refine ⟨.database .uniqueViolation, ?_⟩
    simp only [syncFromStripe, absent, current]
    rw [Subscriptions.ofRows, dif_neg]
    · rfl
    · rintro ⟨_, workspaces, _⟩
      rw [List.map_append] at workspaces
      exact (List.nodup_append.mp workspaces).2.2 _ member _ List.mem_cons_self rfl

/-- Only the row of the mirrored subscription differs, and every workspace keeps a row. -/
theorem syncFromStripe_rows {next : Subscriptions}
    (synced : syncFromStripe t workspaceId planId id stripe = .ok next) :
    (∀ r ∈ next.rows, r ∈ t.rows ∨ r.stripeSubscriptionId = id ∧ r.workspaceId = workspaceId) ∧
      ∀ r ∈ t.rows, ∃ r' ∈ next.rows,
        r' = r ∨ r'.stripeSubscriptionId = id ∧ r'.workspaceId = workspaceId := by
  have checked : ∀ {rows : List Subscription},
      (Subscriptions.ofRows rows).mapError WebhookError.database = .ok next → next.rows = rows := by
    intro rows stored
    unfold Subscriptions.ofRows at stored
    split at stored <;> cases stored
    rfl
  simp only [syncFromStripe] at synced
  split at synced
  · cases synced
  · rw [checked synced]
    constructor
    · intro r hr
      rcases List.mem_append.mp hr with hr | hr
      · exact .inl hr
      · rw [List.mem_singleton.mp hr]
        exact .inr ⟨rfl, rfl⟩
    · exact fun r hr => ⟨r, List.mem_append_left _ hr, .inl rfl⟩
  · rw [checked synced]
    constructor
    · intro r hr
      obtain ⟨old, member, rfl⟩ := List.mem_map.mp hr
      split
      · exact .inr ⟨rfl, rfl⟩
      · exact .inl member
    · intro r hr
      refine ⟨_, List.mem_map_of_mem hr, ?_⟩
      split
      · exact .inr ⟨rfl, rfl⟩
      · exact .inl rfl

theorem syncFromStripe_overwrite {existing : Subscription} {period : Instant × Instant}
    (found : findByStripeId t id = some existing) (own : existing.workspaceId = workspaceId)
    (current : subscriptionPeriod stripe = some period) :
    ∃ next, syncFromStripe t workspaceId planId id stripe = .ok next ∧
      findByStripeId next id = some
        (createSubscription workspaceId planId id stripe existing.id existing.seats period) := by
  obtain ⟨member, named⟩ := findByStripeId_iff.mp found
  let row := createSubscription workspaceId planId id stripe existing.id existing.seats period
  let rows := t.rows.map fun r => if r.id = existing.id then row else r
  -- The row that is overwritten is the one that was found, and its keys are kept.
  have only : ∀ r ∈ t.rows, r.id = existing.id → r = existing := fun r hr same =>
    List.inj_on_of_nodup_map t.idKey hr member same
  have kept : ∀ {κ : Type} (key : Subscription → κ), key row = key existing →
      rows.map key = t.rows.map key := by
    intro κ key same
    rw [List.map_map]
    apply List.map_congr_left
    intro r hr
    simp only [Function.comp]
    split
    · rename_i hit
      rw [only r hr hit, same]
    · rfl
  have ids : (rows.map (·.id)).Nodup := by
    rw [kept (·.id) rfl]
    exact t.idKey
  have workspaces : (rows.map (·.workspaceId)).Nodup := by
    rw [kept (·.workspaceId) own.symm]
    exact t.workspaceKey
  have stripes : (rows.map (·.stripeSubscriptionId)).Nodup := by
    rw [kept (·.stripeSubscriptionId) named.symm]
    exact t.stripeKey
  refine ⟨⟨rows, ids, workspaces, stripes⟩, ?_, ?_⟩
  · simp only [syncFromStripe, found, current]
    change (Subscriptions.ofRows rows).mapError _ = _
    rw [ofRows_ok ids workspaces stripes]
    rfl
  · apply findByStripeId_iff.mpr
    exact ⟨List.mem_map.mpr ⟨existing, member, if_pos rfl⟩, rfl⟩

end

theorem markStatus_absent {t : Subscriptions} {id other : String} (status : SubscriptionStatus)
    (absent : findByStripeId t id = none) : findByStripeId (markStatus t other status) id = none := by
  have column : (markStatus t other status).rows.map (·.stripeSubscriptionId) =
      t.rows.map (·.stripeSubscriptionId) := map_fixed _ _ (fun row => by split <;> rfl) t.rows
  rw [findByStripeId_none_iff, column]
  exact findByStripeId_none_iff.mp absent

theorem markStatus_vacant_iff {t : Subscriptions} {id : String} {workspaceId : Uuid}
    (status : SubscriptionStatus) : findForWorkspace (markStatus t id status) workspaceId = none ↔
      findForWorkspace t workspaceId = none := by
  have column : (markStatus t id status).rows.map (·.workspaceId) = t.rows.map (·.workspaceId) :=
    map_fixed _ _ (fun row => by split <;> rfl) t.rows
  rw [findForWorkspace_none_iff, findForWorkspace_none_iff, column]

theorem markStatus_found {t : Subscriptions} {id : String} {row : Subscription}
    (status : SubscriptionStatus) (found : findByStripeId t id = some row) :
    findByStripeId (markStatus t id status) id = some { row with status } := by
  obtain ⟨member, named⟩ := findByStripeId_iff.mp found
  apply findByStripeId_iff.mpr
  exact ⟨List.mem_map.mpr ⟨row, member, if_pos (beq_iff_eq.mpr named)⟩, named⟩

theorem updateRenewed_found {t : Subscriptions} {id : String} {row : Subscription} (seats : Int)
    (periodEnd : Instant) (found : findByStripeId t id = some row) :
    findByStripeId (updateRenewed t row.id seats periodEnd) id =
      some { row with seats, currentPeriodEnd := periodEnd } := by
  obtain ⟨member, named⟩ := findByStripeId_iff.mp found
  apply findByStripeId_iff.mpr
  exact ⟨List.mem_map.mpr ⟨row, member, if_pos (beq_self_eq_true row.id)⟩, named⟩

theorem isEntitled_eq {t : Subscriptions} {row : Subscription} (member : row ∈ t.rows) :
    isEntitled t row.workspaceId = entitledStatuses.contains row.status := by
  rw [isEntitled, findForWorkspace_iff.mpr ⟨member, rfl⟩]

end Gomer

import Mathlib.Data.Finset.Image
import WazoWebhookd.Database.Models
import WazoWebhookd.Library.ReadCommitted

/-! Two full updates of one stored subscription, in two database transactions. -/
namespace WazoWebhookd
open ReadCommitted

/-- The columns of `webhookd_subscription` that `from_schema` assigns. -/
inductive Column
  | name
  | service
  | eventsUserUuid
  | eventsWazoUuid
  | ownerUserUuid
  | ownerTenantUuid
  deriving DecidableEq

/-- A row of one of the three child tables. -/
inductive Child
  | option (o : SubscriptionOption)
  | event (e : SubscriptionEvent)
  | metadatum (m : SubscriptionMetadatum)
  deriving DecidableEq

/-- The unique constraints of the child tables; metadata has none. -/
def Child.conflicts : Child → Child → Bool
  | .event e, .event e' => e.eventName = e'.eventName
  | .option o, .option o' => o.name = o'.name
  | _, _ => false

abbrev StoredRecord := Record String Column (Option String) Child

def SchemaKwargs.column (k : SchemaKwargs) : Column → Option (Option String)
  | .name => some (some k.name)
  | .service => some (some k.service)
  | .eventsUserUuid => k.eventsUserUuid
  | .eventsWazoUuid => k.eventsWazoUuid
  | .ownerUserUuid => k.ownerUserUuid
  | .ownerTenantUuid => k.ownerTenantUuid.map some

def SchemaKwargs.children (k : SchemaKwargs) : List Child :=
  k.config.map (fun p => .option ⟨p.1, p.2⟩) ++ k.events.map (fun name => .event ⟨name⟩) ++
    k.metadata.map (fun p => .metadatum ⟨p.1, p.2⟩)

/-- The columns the ORM writes: those whose value differs from the loaded one. -/
def SchemaKwargs.changed (k : SchemaKwargs) (loaded : StoredRecord) (c : Column) :
    Option (Option String) :=
  (k.column c).filter fun v => v ≠ loaded.columns c

/-- The new child rows, with the uuids the server generates for them. -/
def SchemaKwargs.rows (k : SchemaKwargs) (uuids : ℕ → String) : List (Row String Child) :=
  k.children.mapIdx fun i child => ⟨uuids i, child⟩

abbrev UpdateStatement := Statement String Column (Option String) Child

/-- The statements of `SubscriptionService.update` after its SELECT: the rows it loaded are
deleted by key, the parent is updated where it differs, the new rows are inserted. -/
def SchemaKwargs.statements (k : SchemaKwargs) (uuids : ℕ → String) (loaded : StoredRecord) :
    List UpdateStatement :=
  loaded.rows.map (fun row => .delete row.key) ++
    (if ∃ c ∈ [Column.name, .service, .eventsUserUuid, .eventsWazoUuid, .ownerUserUuid,
        .ownerTenantUuid], (k.changed loaded c).isSome
      then [.update (k.changed loaded)] else []) ++
    (k.rows uuids).map .insert

def updates (body : Bool → SchemaKwargs) (uuids : Bool → ℕ → String) (i : Bool) :
    StoredRecord → List UpdateStatement :=
  (body i).statements (uuids i)

/-- The stored name, service, events, config and metadata are those of the body. -/
def Shows (r : StoredRecord) (k : SchemaKwargs) : Prop :=
  r.columns .name = some k.name ∧ r.columns .service = some k.service ∧
    (r.rows.map (·.content)).toFinset = k.children.toFinset

instance (r : StoredRecord) (k : SchemaKwargs) : Decidable (Shows r k) :=
  inferInstanceAs (Decidable (_ ∧ _))

section Effect
variable (k : SchemaKwargs) (uuids : ℕ → String)

theorem foldl_delete (keys : List String) (r : StoredRecord) :
    ((keys.map Statement.delete : List UpdateStatement).foldl Record.apply r) =
      { r with rows := r.rows.filter fun row => row.key ∉ keys } := by
  induction keys generalizing r with
  | nil => simp
  | cons key keys ih =>
    rw [List.map_cons, List.foldl_cons, ih]
    simp only [Record.apply, List.filter_filter]
    congr 1
    refine List.filter_congr fun row _ => ?_
    by_cases h : row.key = key <;> simp [h]

theorem foldl_insert (rows : List (Row String Child)) (r : StoredRecord) :
    ((rows.map Statement.insert : List UpdateStatement).foldl Record.apply r) =
      { r with rows := r.rows ++ rows } := by
  induction rows generalizing r with
  | nil => simp
  | cons row rows ih =>
    rw [List.map_cons, List.foldl_cons, ih]
    simp [Record.apply]

/-- What the statements of an update do to a record, whatever they were planned from. -/
theorem foldl_statements (loaded r : StoredRecord) :
    (k.statements uuids loaded).foldl Record.apply r =
      ⟨fun c => (k.changed loaded c).getD (r.columns c),
        (r.rows.filter fun row => row.key ∉ loaded.rows.map (·.key)) ++ k.rows uuids⟩ := by
  have hdelete : (loaded.rows.map fun row => Statement.delete row.key) =
      ((loaded.rows.map (·.key)).map Statement.delete : List UpdateStatement) := by
    rw [List.map_map]
    rfl
  unfold SchemaKwargs.statements
  rw [List.foldl_append, List.foldl_append, hdelete, foldl_delete, foldl_insert]
  split_ifs with hchanged
  · rfl
  · have hnone : ∀ c, k.changed loaded c = none := by
      intro c
      by_contra hsome
      refine hchanged ⟨c, ?_, Option.isSome_iff_ne_none.mpr hsome⟩
      cases c <;> decide
    simp [hnone]

theorem filter_deleted (r : StoredRecord) :
    (r.rows.filter fun row => row.key ∉ r.rows.map (·.key)) = [] := by
  rw [List.filter_eq_nil_iff]
  intro row hrow
  have hmem : row.key ∈ r.rows.map (·.key) := List.mem_map_of_mem hrow
  simpa using hmem

theorem changed_getD {c : Column} {v : Option String} (hc : k.column c = some v)
    (loaded : StoredRecord) (w : Option String) :
    (k.changed loaded c).getD w = if v = loaded.columns c then w else v := by
  unfold SchemaKwargs.changed
  rw [hc]
  by_cases h : v = loaded.columns c <;> simp [Option.filter, h]

theorem map_content_rows : (k.rows uuids).map (·.content) = k.children := by
  unfold SchemaKwargs.rows
  apply List.ext_getElem <;> simp

theorem key_of_mem_rows {row : Row String Child} (h : row ∈ k.rows uuids) :
    ∃ i, row.key = uuids i := by
  unfold SchemaKwargs.rows at h
  obtain ⟨i, hi, rfl⟩ := List.mem_mapIdx.mp h
  exact ⟨i, rfl⟩

end Effect

/-- Of two overlapping updates that both commit, the later one covers the earlier one, or
adds nothing to it. -/
def Mergeable (r : StoredRecord) (first second : SchemaKwargs) : Prop :=
  (first.children ⊆ second.children ∧ ∀ c ∈ [Column.name, .service],
      second.column c = some (r.columns c) → first.column c = some (r.columns c)) ∨
    (second.children ⊆ first.children ∧ ∀ c ∈ [Column.name, .service],
      second.column c = some (r.columns c) ∨ second.column c = first.column c)

section Serial
variable (body : Bool → SchemaKwargs) (uuids : Bool → ℕ → String)

/-- An update planned from the record it is applied to leaves its body. -/
theorem shows_of_serial (r : StoredRecord) (i : Bool) :
    Shows ((updates body uuids i r).foldl Record.apply r) (body i) := by
  unfold updates
  rw [foldl_statements]
  refine ⟨?_, ?_, ?_⟩
  · dsimp only
    rw [changed_getD _ rfl]
    split_ifs with h
    · exact h.symm
    · rfl
  · dsimp only
    rw [changed_getD _ rfl]
    split_ifs with h
    · exact h.symm
    · rfl
  · dsimp only
    rw [filter_deleted, List.nil_append, map_content_rows]

end Serial

section Overlap
variable (body : Bool → SchemaKwargs) (uuids : Bool → ℕ → String)

/-- The rows of two overlapping updates add up, and a column that the later one leaves as it
read it keeps the value of the earlier one. -/
theorem foldl_overlapping {r : StoredRecord}
    (hfresh : ∀ i j, ∀ row ∈ r.rows, row.key ≠ uuids i j) (first second : Bool) :
    let merged := (updates body uuids second r).foldl Record.apply
      ((updates body uuids first r).foldl Record.apply r)
    (merged.rows.map (·.content)).toFinset =
        (body first).children.toFinset ∪ (body second).children.toFinset ∧
      ∀ c v w, (body first).column c = some v → (body second).column c = some w →
        merged.columns c = if w = r.columns c then v else w := by
  unfold updates
  simp only [foldl_statements]
  have hkeep : (((body first).rows (uuids first)).filter fun row =>
      row.key ∉ r.rows.map (·.key)) = (body first).rows (uuids first) := by
    rw [List.filter_eq_self]
    intro row hrow
    obtain ⟨j, hj⟩ := key_of_mem_rows _ _ hrow
    have hnot : row.key ∉ r.rows.map (·.key) := by
      intro hmem
      obtain ⟨old, hold, hkey⟩ := List.mem_map.mp hmem
      exact hfresh first j old hold (hkey.trans hj)
    simpa using hnot
  constructor
  · rw [filter_deleted, List.nil_append, hkeep, List.map_append, map_content_rows, map_content_rows,
      List.toFinset_append]
  · intro c v w hv hw
    rw [changed_getD _ hw, changed_getD _ hv]
    split_ifs with h1 h2
    · exact h2.symm
    · rfl
    · rfl

theorem toFinset_subset_iff {l l' : List Child} : l.toFinset ⊆ l'.toFinset ↔ l ⊆ l' := by
  simp only [Finset.subset_iff, List.mem_toFinset]
  rfl

/-- Two updates that both commit leave one of the two bodies exactly when they did not
overlap, or are mergeable. -/
theorem concurrent_updates_iff {r : StoredRecord}
    (hfresh : ∀ i j, ∀ row ∈ r.rows, row.key ≠ uuids i j) {schedule : List Bool}
    {first second : Bool}
    (hc : (System.run Child.conflicts (updates body uuids) r schedule).commits = [first, second]) :
    let final := (System.run Child.conflicts (updates body uuids) r schedule).record
    (Shows final (body first) ∨ Shows final (body second)) ↔
      ¬ System.Overlaps Child.conflicts (updates body uuids) r schedule ∨
        Mergeable r (body first) (body second) := by
  obtain ⟨loaded, hrec, hover, hserial⟩ := System.record_of_commits hc
  intro final
  by_cases ho : System.Overlaps Child.conflicts (updates body uuids) r schedule
  · have hfinal : final = _ := hrec
    rw [hover ho] at hfinal
    obtain ⟨hchildren, hcolumn⟩ := foldl_overlapping body uuids hfresh first second
    rw [← hfinal] at hchildren hcolumn
    have hname := hcolumn .name _ _ rfl rfl
    have hservice := hcolumn .service _ _ rfl rfl
    have hfirst : ∀ {v w old : Option String}, (if w = old then v else w) = v ↔
        some w = some old ∨ some w = some v := by
      intro v w old
      split_ifs with h <;> simp [h]
    have hsecond : ∀ {v w old : Option String}, (if w = old then v else w) = w ↔
        (some w = some old → some v = some old) := by
      intro v w old
      split_ifs with h <;> simp [h]
    have hshows₁ : Shows final (body first) ↔
        (body second).children ⊆ (body first).children ∧ ∀ c ∈ [Column.name, .service],
          (body second).column c = some (r.columns c) ∨
            (body second).column c = (body first).column c := by
      unfold Shows
      rw [hname, hservice, hchildren, Finset.union_eq_left, toFinset_subset_iff, hfirst, hfirst,
        ← and_assoc, and_comm]
      simp [SchemaKwargs.column]
    have hshows₂ : Shows final (body second) ↔
        (body first).children ⊆ (body second).children ∧ ∀ c ∈ [Column.name, .service],
          (body second).column c = some (r.columns c) →
            (body first).column c = some (r.columns c) := by
      unfold Shows
      rw [hname, hservice, hchildren, Finset.union_eq_right, toFinset_subset_iff, hsecond,
        hsecond, ← and_assoc, and_comm]
      simp [SchemaKwargs.column]
    rw [or_iff_right (not_not.mpr ho), hshows₁, hshows₂, or_comm]
    rfl
  · have hfinal : final = _ := hrec
    rw [hserial ho] at hfinal
    refine iff_of_true (Or.inr ?_) (Or.inl ho)
    rw [hfinal]
    exact shows_of_serial body uuids _ second

end Overlap

/-- A stored subscription without a configuration, and a body that changes its events. -/
def mobileRecord : StoredRecord where
  columns
    | .name => some "calls"
    | .service => some "mobile"
    | .ownerTenantUuid => some "6c6d3b6c-58cb-4f5c-9a0e-0f1f0c1f7a03"
    | _ => none
  rows := [⟨"0a1d", .event ⟨"call_created"⟩⟩]

def mobileBody (events : List String) : SchemaKwargs where
  name := "calls"
  service := "mobile"
  config := []
  events := events
  metadata := []
  eventsWazoUuid := some none
  eventsUserUuid := some none
  ownerUserUuid := some none
  ownerTenantUuid := some "6c6d3b6c-58cb-4f5c-9a0e-0f1f0c1f7a03"

def mobileUuids (i : Bool) (_ : ℕ) : String := if i then "0a1f" else "0a1e"

theorem mobileUuids_fresh (i : Bool) (j : ℕ) : ∀ row ∈ mobileRecord.rows,
    row.key ≠ mobileUuids i j := by
  intro row hrow
  rw [List.mem_singleton.mp hrow]
  cases i <;> simp [mobileUuids]

/-- Both read, the first one runs to its commit, then the second one. -/
def overlappingSchedule : List Bool :=
  [false, true, false, false, false, true, true, true]

theorem concurrent_updates_iff_cleared :
    let body : Bool → SchemaKwargs := fun i => mobileBody (if i then ["call_ended"] else [])
    let final := (System.run Child.conflicts (updates body mobileUuids) mobileRecord
      [false, true, false, false, true, true, true]).record
    Shows final (body false) ∨ Shows final (body true) := by
  intro body final
  refine (concurrent_updates_iff body mobileUuids mobileUuids_fresh rfl).mpr (Or.inr ?_)
  exact Or.inl ⟨List.nil_subset _, by decide⟩

/-- Each update deletes the row it read and inserts its own: both new rows stay. -/
theorem overlappingSchedule_mixes :
    let body : Bool → SchemaKwargs := fun i => mobileBody (if i then ["call_ended"] else ["hangup"])
    let final := System.run Child.conflicts (updates body mobileUuids) mobileRecord
      overlappingSchedule
    final.commits = [false, true] ∧
      ¬ (Shows final.record (body false) ∨ Shows final.record (body true)) := by
  decide

end WazoWebhookd

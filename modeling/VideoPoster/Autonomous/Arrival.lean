import VideoPoster.Autonomous.Observations

/-!
# The order in which observations arrive
-/

namespace VideoPoster.Autonomous.Observations
open Python Floating List Bucket
open Telemetry (BillingStatus)

variable {Hash : Type} {R : Recorder Hash} {L L' past rest : List Observation} {o : Observation}
  {ledger : Ledger Hash}

def Shares (a b : Observation) : Prop := a.requestId = b.requestId ∨ a.eventId = b.eventId

instance (a b : Observation) : Decidable (Shares a b) := inferInstanceAs (Decidable (_ ∨ _))

def EqualPayloads (R : Recorder Hash) (L : List Observation) : Prop :=
  ∀ a ∈ L, ∀ b ∈ L, Shares a b → payload R a = payload R b

def Alike (R : Recorder Hash) (L : List Observation) : Prop :=
  ∀ a ∈ L, ∀ b ∈ L, Shares a b → row R a = row R b

instance : Decidable (EqualPayloads R L) := inferInstanceAs (Decidable (∀ a ∈ L, ∀ b ∈ L, _ → _))

instance [DecidableEq Hash] : Decidable (Alike R L) := inferInstanceAs (Decidable (∀ a ∈ L, ∀ b ∈ L, _ → _))

def Redelivers (L' L : List Observation) : Prop := ∀ o, o ∈ L' ↔ o ∈ L

theorem EqualPayloads.of_subset (equal : EqualPayloads R L) (within : ∀ a ∈ L', a ∈ L) : EqualPayloads R L' :=
  fun a left b right => equal a (within a left) b (within b right)

theorem inside (within : ∀ a ∈ o :: rest ++ past, a ∈ L) : ∀ a ∈ o :: past, a ∈ L := by
  rintro a (_ | ⟨_, member⟩)
  · exact within o (by simp)
  · exact within a (mem_append_right _ member)

theorem moved (a : Observation) (member : a ∈ rest ++ o :: past) : a ∈ o :: rest ++ past :=
  (perm_middle.mem_iff).mp member

/-! ## A ledger that keeps what was delivered -/

/-- The ledger after the past deliveries: every row was delivered, every delivery has a row that it shares an
identity with, and no two rows share one. -/
structure Sound (R : Recorder Hash) (past : List Observation) (ledger : Ledger Hash) : Prop where
  checked : ∀ o ∈ past, o.check = .ok () ∧ Storable o
  conflicts : ledger.conflicts = []
  delivered : ∀ stored ∈ ledger.observations, ∃ o ∈ past, row R o = stored
  covered : ∀ o ∈ past, ∃ stored ∈ ledger.observations, Matches o stored
  requests : (ledger.observations.map Row.requestId).Nodup
  events : (ledger.observations.map Row.eventId).Nodup

theorem Sound.empty : Sound R [] ({} : Ledger Hash) where
  checked := by simp
  conflicts := rfl
  delivered := by simp
  covered := by simp
  requests := by simp
  events := by simp

theorem Sound.equal (sound : Sound R past ledger) (equal : EqualPayloads R (o :: past)) :
    ∀ stored ∈ ledger.observations, Matches o stored → stored.payloadSha256 = R.digest (payload R o) := by
  intro stored member shared
  obtain ⟨earlier, listed, rfl⟩ := sound.delivered stored member
  exact congrArg R.digest (equal earlier (by simp [listed]) o (by simp) shared)

section
variable (sound : Sound R L ledger)
include sound

theorem Sound.congr (again : Redelivers L' L) : Sound R L' ledger where
  checked o member := sound.checked o ((again o).mp member)
  conflicts := sound.conflicts
  delivered stored member := by
    obtain ⟨o, listed, made⟩ := sound.delivered stored member
    exact ⟨o, (again o).mpr listed, made⟩
  covered o member := sound.covered o ((again o).mp member)
  requests := sound.requests
  events := sound.events

theorem Sound.rows (alike : Alike R L) (stored : Row Hash) :
    stored ∈ ledger.observations ↔ ∃ o ∈ L, row R o = stored := by
  refine ⟨sound.delivered stored, ?_⟩
  rintro ⟨o, member, rfl⟩
  obtain ⟨other, listed, shared⟩ := sound.covered o member
  obtain ⟨a, delivered, rfl⟩ := sound.delivered other listed
  rwa [← alike a delivered o member shared]

theorem Sound.rows_nodup : ledger.observations.Nodup := .of_map _ sound.requests

theorem Sound.stored_once {a b : Observation} (shared : Shares a b)
    (first : row R a ∈ ledger.observations) (second : row R b ∈ ledger.observations) : row R a = row R b := by
  rcases shared with request | event
  · exact inj_on_of_nodup_map sound.requests first second request
  · exact inj_on_of_nodup_map sound.events first second event

end

/-! ## One delivery -/

section Reconcile
variable [DecidableEq Hash]

theorem reconcile_cases (checked : o.check = .ok ()) (storable : Storable o) (equal : ∀ stored ∈ ledger.observations,
    Matches o stored → stored.payloadSha256 = R.digest (payload R o)) : reconcile R ledger o = (ledger, .ok false)
    ∧ (∃ stored ∈ ledger.observations, Matches o stored) ∨ reconcile R ledger o = ({ ledger with observations :=
    ledger.observations ++ [row R o] }, .ok true) ∧ ∀ stored ∈ ledger.observations, ¬ Matches o stored := by
  unfold reconcile
  simp only [checked]
  cases found : ledger.observations.filter fun stored => Matches o stored with
  | nil =>
    right
    refine ⟨if_pos storable, fun stored member shared => ?_⟩
    exact (filter_eq_nil_iff.mp found stored member) (by simpa using shared)
  | cons head tail =>
    left
    have listed : ∀ stored ∈ head :: tail, stored ∈ ledger.observations ∧ Matches o stored := by
      intro stored member
      rw [← found] at member
      simpa using member
    refine ⟨if_pos fun stored member => ?_, head, listed head (by simp)⟩
    exact equal stored (listed stored member).1 (listed stored member).2

theorem check_of_reconcile {fresh : Bool} (accepted : (reconcile R ledger o).2 = .ok fresh) : o.check = .ok () := by
  unfold reconcile at accepted
  split at accepted
  · cases accepted
  · assumption

theorem storable_of_new (checked : o.check = .ok ()) (accepted : ∃ fresh, (reconcile R ledger o).2 = .ok fresh)
    (new : ∀ stored ∈ ledger.observations, ¬ Matches o stored) : Storable o := by
  obtain ⟨fresh, accepted⟩ := accepted
  have none : (ledger.observations.filter fun stored => Matches o stored) = [] :=
    filter_eq_nil_iff.mpr fun stored member => by simpa using new stored member
  unfold reconcile at accepted
  simp only [checked, none] at accepted
  split at accepted
  · assumption
  · cases accepted

/-! ## Many deliveries -/

section
variable (sound : Sound R past ledger)
include sound

theorem Sound.step (equal : EqualPayloads R (o :: past)) (checked : o.check = .ok ()) (storable : Storable o) :
    Sound R (o :: past) (reconcile R ledger o).1 ∧ ∃ fresh, (reconcile R ledger o).2 = .ok fresh := by
  have valid : ∀ a ∈ o :: past, a.check = .ok () ∧ Storable a := by
    rintro a (_ | ⟨_, member⟩)
    · exact ⟨checked, storable⟩
    · exact sound.checked a member
  rcases reconcile_cases checked storable (sound.equal equal) with ⟨same, stored⟩ | ⟨same, new⟩
  · rw [same]
    refine ⟨⟨valid, sound.conflicts, fun r member => ?_, ?_, sound.requests, sound.events⟩, false, rfl⟩
    · obtain ⟨a, listed, made⟩ := sound.delivered r member
      exact ⟨a, by simp [listed], made⟩
    · rintro a (_ | ⟨_, member⟩)
      · exact stored
      · exact sound.covered a member
  · rw [same]
    refine ⟨⟨valid, sound.conflicts, fun r member => ?_, ?_, ?_, ?_⟩, true, rfl⟩
    · rcases mem_append.mp member with old | added
      · obtain ⟨a, listed, made⟩ := sound.delivered r old
        exact ⟨a, by simp [listed], made⟩
      · exact ⟨o, by simp, (mem_singleton.mp added).symm⟩
    · rintro a (_ | ⟨_, member⟩)
      · exact ⟨row R o, by simp, .inl rfl⟩
      · obtain ⟨r, listed, shared⟩ := sound.covered a member
        exact ⟨r, by simp [listed], shared⟩
    · simp only [map_append, map_cons, map_nil, nodup_append_comm, singleton_append,
        nodup_cons]
      refine ⟨fun known => ?_, sound.requests⟩
      obtain ⟨r, listed, request⟩ := mem_map.mp known
      exact new r listed (.inl request)
    · simp only [map_append, map_cons, map_nil, nodup_append_comm, singleton_append,
        nodup_cons]
      refine ⟨fun known => ?_, sound.events⟩
      obtain ⟨r, listed, event⟩ := mem_map.mp known
      exact new r listed (.inr event)

theorem Sound.storable (equal : EqualPayloads R (o :: past))
    (accepted : ∃ fresh, (reconcile R ledger o).2 = .ok fresh) : o.check = .ok () ∧ Storable o := by
  have checked := check_of_reconcile accepted.choose_spec
  refine ⟨checked, ?_⟩
  by_cases known : ∃ stored ∈ ledger.observations, Matches o stored
  · obtain ⟨stored, member, shared⟩ := known
    obtain ⟨earlier, listed, rfl⟩ := sound.delivered stored member
    have payloads := equal earlier (by simp [listed]) o (by simp) shared
    have counts : earlier.counts = o.counts := congrArg Payload.counts payloads
    have fits := (sound.checked earlier listed).2
    unfold Storable at fits ⊢
    rwa [counts] at fits
  · push Not at known
    exact storable_of_new checked accepted known

theorem Sound.deliver (equal : EqualPayloads R L) (within : ∀ a ∈ rest ++ past, a ∈ L) (valid : ∀ a ∈ rest, a.check =
    .ok () ∧ Storable a) : Accepts R ledger rest ∧ Sound R (rest.reverse ++ past) (deliver R ledger rest) := by
  induction rest generalizing past ledger with
  | nil => exact ⟨trivial, sound⟩
  | cons o rest ih =>
    have payloads : EqualPayloads R (o :: past) := equal.of_subset (inside within)
    obtain ⟨checked, storable⟩ := valid o (by simp)
    obtain ⟨next, fresh⟩ := sound.step payloads checked storable
    obtain ⟨accepts, later⟩ := ih next (fun a member => within a (moved a member))
      fun a member => valid a (by simp [member])
    refine ⟨⟨fresh, accepts⟩, ?_⟩
    simpa [Observations.deliver] using later

theorem Sound.valid (equal : EqualPayloads R L) (within : ∀ a ∈ rest ++ past, a ∈ L)
    (accepts : Accepts R ledger rest) : ∀ a ∈ rest, a.check = .ok () ∧ Storable a := by
  induction rest generalizing past ledger with
  | nil => simp
  | cons o rest ih =>
    have payloads : EqualPayloads R (o :: past) := equal.of_subset (inside within)
    obtain ⟨accepted, later⟩ := accepts
    obtain ⟨checked, storable⟩ := sound.storable payloads accepted
    obtain ⟨next, -⟩ := sound.step payloads checked storable
    rintro a (_ | ⟨_, member⟩)
    · exact ⟨checked, storable⟩
    · exact ih next (fun a member => within a (moved a member)) later a member

end

theorem sound_of_accepts (equal : EqualPayloads R L) (accepts : Accepts R {} L) : Sound R L (deliver R {} L) := by
  have valid := Sound.empty.valid equal (by simp) accepts
  obtain ⟨-, sound⟩ := Sound.empty.deliver equal (by simp) valid
  exact sound.congr fun o => by simp

theorem redelivered (equal : EqualPayloads R L) (accepts : Accepts R {} L) (again : Redelivers L' L) :
    Accepts R {} L' ∧ Sound R L (deliver R {} L') := by
  have valid := Sound.empty.valid equal (by simp) accepts
  obtain ⟨accepts', sound⟩ := Sound.empty.deliver (equal.of_subset fun o => (again o).mp) (by simp)
    fun o member => valid o ((again o).mp member)
  refine ⟨accepts', sound.congr fun o => ?_⟩
  simp [again o]

theorem reconcile_keeps {stored : Row Hash} (o : Observation) (member : stored ∈ ledger.observations) :
    stored ∈ (reconcile R ledger o).1.observations := by
  unfold reconcile
  cases o.check with
  | error _ => exact member
  | ok _ =>
    dsimp only
    split
    · split_ifs
      · exact mem_append_left _ member
      · exact member
    · split_ifs <;> exact member

theorem deliver_keeps {stored : Row Hash} (rest : List Observation) (member : stored ∈ ledger.observations) :
    stored ∈ (deliver R ledger rest).observations := by
  induction rest generalizing ledger with
  | nil => exact member
  | cons o rest ih => exact ih (reconcile_keeps o member)

theorem first_stored (accepts : Accepts R {} (o :: L)) : row R o ∈ (deliver R {} (o :: L)).observations := by
  refine deliver_keeps L ?_
  obtain ⟨fresh, accepted⟩ := accepts.1
  have checked := check_of_reconcile accepted
  have storable := storable_of_new checked ⟨fresh, accepted⟩ (by simp)
  rcases @reconcile_cases _ R o {} _ checked storable (by simp) with ⟨-, _, none, -⟩ | ⟨same, -⟩
  · cases none
  · show row R o ∈ (reconcile R {} o).1.observations
    rw [same]
    simp

theorem alike_of_rows (equal : EqualPayloads R L) (accepts : Accepts R {} L) (same : ∀ L', Redelivers L' L →
    ∀ stored, stored ∈ (deliver R {} L').observations ↔ stored ∈ (deliver R {} L).observations) : Alike R L := by
  intro a left b right shared
  have stored {o : Observation} (member : o ∈ L) : row R o ∈ (deliver R {} L).observations := by
    have again : Redelivers (o :: L) L := fun other => by
      simp only [mem_cons, or_iff_right_iff_imp]
      rintro rfl
      exact member
    exact (same _ again _).mp (first_stored (redelivered equal accepts again).1)
  exact (sound_of_accepts equal accepts).stored_once shared (stored left) (stored right)

end Reconcile

/-! ## The report -/

section Report
variable {rows others : List (Row Hash)}

def Bucket.counted (bucket : Bucket) : Bucket :=
  { bucket with moneyUsd := bucket.moneyUsd.map fun _ => .ofNat 0 }

def Buckets.counted (buckets : Buckets) : Buckets := fun key => (buckets key).map Bucket.counted

def Report.counted (report : Report) : Report where
  requests := report.requests
  moneyUsd := report.moneyUsd.map fun _ => .ofNat 0
  unknownBillingRequests := report.unknownBillingRequests
  unauthenticatedBillingRequests := report.unauthenticatedBillingRequests
  tokens := report.tokens
  quotaUnits := report.quotaUnits
  latencyS := report.latencyS.map fun _ => 0
  queueWaitS := report.queueWaitS.map fun _ => 0
  pendingExposureUsd := report.pendingExposureUsd.map fun _ => .ofNat 0
  unknownTimestampRequests := report.unknownTimestampRequests
  conflicts := report.conflicts
  models := report.models
  byEpisode := report.byEpisode.counted
  byMonthUtc := report.byMonthUtc.counted
  byExperiment := report.byExperiment.counted
  byWorker := report.byWorker.counted

structure ExactSums (rows : List (Row Hash)) : Prop where
  money : Decimal.Exact (rows.filterMap Row.moneyUsd)
  exposure : Decimal.Exact (rows.filterMap Row.pendingExposureUsd)
  latency : binary64.Exact (rows.filterMap Row.latencyS)
  queueWait : binary64.Exact (rows.filterMap Row.queueWaitS)

theorem total_append (amounts : List Decimal) (amount : Decimal) :
    total (amounts ++ [amount]) = some (((total amounts).getD (.ofNat 0)).add amount) := by
  cases amounts with
  | nil => rfl
  | cons first rest => simp [total]

def Bucket.ofRows (rows : List (Row Hash)) : Option Bucket :=
  if rows = [] then none
  else some {
    requests := rows.length
    moneyUsd := total (rows.filterMap Row.moneyUsd)
    unknownBillingRequests := rows.countP fun row => row.billing = .unknown
    unauthenticatedBillingRequests := rows.countP fun row => row.billing = .unauthenticated }

theorem Bucket.money_count {bucket : Bucket} (same : bucket.moneyUsd = total (rows.filterMap Row.moneyUsd))
    (row : Row Hash) : (bucket.count row).moneyUsd = total ((rows ++ [row]).filterMap Row.moneyUsd) := by
  unfold count
  cases known : row.moneyUsd with
  | none => simp [known, same]
  | some money => simp [known, same, total_append]

theorem Bucket.ofRows_append (rows : List (Row Hash)) (row : Row Hash) :
    ofRows (rows ++ [row]) = some (((ofRows rows).getD {}).count row) := by
  have money : (((ofRows rows).getD {}).count row).moneyUsd =
      total ((rows ++ [row]).filterMap Row.moneyUsd) := by
    refine money_count ?_ row
    cases rows <;> rfl
  unfold ofRows at money ⊢
  rw [if_neg (by simp), ← money]
  by_cases none : rows = []
  · simp [none, count, countP_singleton]
  · simp [none, count, countP_append, countP_singleton]

theorem buckets_eq (dimension : Row Hash → Option String) (rows : List (Row Hash)) (key : String) :
    buckets dimension rows key = ofRows (rows.filter fun row => dimension row = some key) := by
  induction rows using reverseRecOn with
  | nil => rfl
  | append_singleton rows row ih =>
    rw [buckets, foldl_append, ← buckets, filter_append]
    show Buckets.count dimension (buckets dimension rows) row key = _
    unfold Buckets.count
    cases found : dimension row with
    | none => simpa [found] using ih
    | some other =>
      by_cases same : other = key
      · subst same
        have alone : [row].filter (fun row => dimension row = some other) = [row] := by simp [found]
        rw [alone, ofRows_append, ← ih]
        exact Function.update_self _ _ _
      · have nothing : [row].filter (fun row => dimension row = some key) = [] := by simp [found, same]
        rw [nothing, append_nil, ← ih]
        exact Function.update_of_ne (Ne.symm same) _ _

/-! ### The order of the rows -/

theorem perm_nil_iff {α : Type} {l l' : List α} (perm : l.Perm l') : l = [] ↔ l' = [] := by
  rw [← perm_nil, perm.congr_left, perm_nil]

theorem total_perm {amounts amounts' : List Decimal} (perm : amounts.Perm amounts') :
    (total amounts).map (fun _ => Decimal.ofNat 0) = (total amounts').map fun _ => Decimal.ofNat 0 := by
  unfold total
  simp only [perm_nil_iff perm]
  split_ifs <;> rfl

theorem total_exact {amounts amounts' : List Decimal} (exact : Decimal.Exact amounts)
    (perm : amounts.Perm amounts') : total amounts = total amounts' := by
  unfold total
  simp only [perm_nil_iff perm, exact.perm perm]

theorem elapsed_perm {times times' : List ℚ} (perm : times.Perm times') :
    (elapsed times).map (fun _ => (0 : ℚ)) = (elapsed times').map fun _ => 0 := by
  unfold elapsed
  simp only [perm_nil_iff perm]
  split_ifs <;> rfl

theorem elapsed_exact {times times' : List ℚ} (exact : binary64.Exact times) (perm : times.Perm times') :
    elapsed times = elapsed times' := by
  have exact' : binary64.Exact times' := by
    obtain ⟨e, least, multiples, bounded⟩ := exact
    refine ⟨e, least, fun x member => multiples x (perm.mem_iff.mpr member), ?_⟩
    rwa [← perm.sum_eq]
  unfold elapsed
  simp only [perm_nil_iff perm, exact.foldl_eq, exact'.foldl_eq, perm.sum_eq]

variable (perm : rows.Perm others)
include perm

theorem models_perm : models rows = models others := by
  unfold models
  have same := (perm.filterMap fun row => row.model.filter (· ≠ "")).dedup
  have total (a b : String) : (decide (a ≤ b) || decide (b ≤ a)) = true := by simpa using le_total a b
  have transitive (a b c : String) (first : decide (a ≤ b) = true) (second : decide (b ≤ c) = true) :
      decide (a ≤ c) = true := by
    simp only [decide_eq_true_eq] at first second ⊢
    exact first.trans second
  refine ((mergeSort_perm _ _).trans (same.trans (mergeSort_perm _ _).symm)).eq_of_pairwise ?_
    (pairwise_mergeSort transitive total _)
    (pairwise_mergeSort transitive total _)
  intro a b _ _ first second
  simp only [decide_eq_true_eq] at first second
  exact le_antisymm first second

theorem Bucket.ofRows_perm : (ofRows rows).map counted = (ofRows others).map counted := by
  unfold ofRows
  simp only [perm_nil_iff perm, perm.length_eq, perm.countP_eq]
  split_ifs
  · rfl
  · simp only [Option.map_some, counted, total_perm (perm.filterMap Row.moneyUsd)]

theorem Bucket.ofRows_exact (exact : Decimal.Exact (rows.filterMap Row.moneyUsd)) : ofRows rows = ofRows others := by
  unfold ofRows
  simp only [perm_nil_iff perm, perm.length_eq, perm.countP_eq, total_exact exact (perm.filterMap Row.moneyUsd)]

theorem buckets_perm (dimension : Row Hash → Option String) :
    (buckets dimension rows).counted = (buckets dimension others).counted := by
  funext key
  unfold Buckets.counted
  rw [buckets_eq, buckets_eq, ofRows_perm (perm.filter _)]

theorem buckets_exact (exact : Decimal.Exact (rows.filterMap Row.moneyUsd))
    (dimension : Row Hash → Option String) : buckets dimension rows = buckets dimension others := by
  funext key
  rw [buckets_eq, buckets_eq]
  exact ofRows_exact (perm.filter _) (exact.sublist (filter_sublist.filterMap _))

theorem counted_perm (conflicts : ℕ) :
    (reportFromRows rows conflicts).counted = (reportFromRows others conflicts).counted := by
  unfold reportFromRows Report.counted
  simp only [perm.length_eq, perm.countP_eq, models_perm perm, buckets_perm perm, sumOf,
    (perm.map _).sum_eq, total_perm (perm.filterMap _), elapsed_perm (perm.filterMap _)]

theorem report_perm (exact : ExactSums rows) (conflicts : ℕ) :
    reportFromRows rows conflicts = reportFromRows others conflicts := by
  unfold reportFromRows
  simp only [perm.length_eq, perm.countP_eq, models_perm perm, buckets_exact perm exact.money, sumOf,
    (perm.map _).sum_eq, total_exact exact.money (perm.filterMap _),
    total_exact exact.exposure (perm.filterMap _), elapsed_exact exact.latency (perm.filterMap _),
    elapsed_exact exact.queueWait (perm.filterMap _)]

end Report
/-! ## Any order of arrival -/

section Arrival

theorem Sound.requests_iff (sound : Sound R L ledger) (alike : Alike R L) (id : String) :
    id ∈ ledger.observations.map Row.requestId ↔ ∃ o ∈ L, o.requestId = id := by
  constructor
  · intro listed
    obtain ⟨stored, member, rfl⟩ := mem_map.mp listed
    obtain ⟨o, delivered, rfl⟩ := sound.delivered stored member
    exact ⟨o, delivered, rfl⟩
  · rintro ⟨o, delivered, rfl⟩
    exact mem_map.mpr ⟨row R o, (sound.rows alike _).mpr ⟨o, delivered, rfl⟩, rfl⟩

theorem Sound.perm {ledger' : Ledger Hash} (sound : Sound R L ledger) (sound' : Sound R L ledger')
    (alike : Alike R L) : ledger.observations.Perm ledger'.observations := by
  refine (perm_ext_iff_of_nodup sound.rows_nodup sound'.rows_nodup).mpr fun stored => ?_
  rw [sound.rows alike, sound'.rows alike]

variable [DecidableEq Hash]

/-- In every order the observations are accepted without a conflict and no request is stored twice. The rows
are the same in every order exactly if observations that share an identity are stored alike; then no request
is lost and the report counts the same, and its sums are the same if none of them is rounded. -/
theorem arrival_order (equal : EqualPayloads R L) (accepts : Accepts R {} L) : (∀ L', Redelivers L' L → Accepts R {} L'
    ∧ (deliver R {} L').conflicts = [] ∧ ((deliver R {} L').observations.map Row.requestId).Nodup) ∧ ((∀ L', Redelivers
    L' L → ∀ stored, stored ∈ (deliver R {} L').observations ↔ stored ∈ (deliver R {} L).observations) ↔ Alike R L)
    ∧ (Alike R L → ∀ L', Redelivers L' L → (∀ id, id ∈ (deliver R {} L').observations.map Row.requestId ↔
    ∃ o ∈ L, o.requestId = id) ∧ (report (deliver R {} L')).counted = (report (deliver R {} L)).counted ∧
    (ExactSums (deliver R {} L).observations → report (deliver R {} L') = report (deliver R {} L))) := by
  have sound := sound_of_accepts equal accepts
  refine ⟨fun L' again => ?_, ⟨alike_of_rows equal accepts, fun alike L' again stored => ?_⟩, fun alike L' again => ?_⟩
  · obtain ⟨accepts', sound'⟩ := redelivered equal accepts again
    exact ⟨accepts', sound'.conflicts, sound'.requests⟩
  · obtain ⟨-, sound'⟩ := redelivered equal accepts again
    rw [sound'.rows alike, sound.rows alike]
  · obtain ⟨-, sound'⟩ := redelivered equal accepts again
    have perm := sound.perm sound' alike
    refine ⟨sound'.requests_iff alike, ?_, fun exact => ?_⟩
    · unfold report
      rw [sound'.conflicts, sound.conflicts]
      exact (counted_perm perm _).symm
    · unfold report
      rw [sound'.conflicts, sound.conflicts]
      exact (report_perm perm exact _).symm

end Arrival

/-! ## Chains of identities -/

def sampleRecorder : Recorder Payload where
  modelCatalog model := model = "veo-3"
  isoformat _ := "2026-07-01T00:00:00+00:00"
  month _ := "2026-07"
  digest := id

def observed (requestId eventId : String) (latency : ℚ) : Observation where
  eventId := eventId
  requestId := requestId
  episodeId := "episode-1"
  worker := "image"
  experiment := false
  billing := .authenticated
  observedAt := some (.aware 1782864000000000)
  latencyS := some (some latency)
  pendingExposureUsd := some (.finite false 48 (-3))
  moneyUsd := some (.finite false 48 (-3))
  model := some "veo-3"

def apart : List Observation := [observed "request-1" "event-1" 1, observed "request-2" "event-2" 2]

theorem apart_equal : EqualPayloads sampleRecorder apart := by decide +kernel

theorem apart_alike : Alike sampleRecorder apart := by decide +kernel

theorem apart_accepted : Accepts sampleRecorder {} apart :=
  ⟨⟨true, by decide⟩, ⟨true, by decide⟩, trivial⟩

theorem apart_exact : ExactSums (deliver sampleRecorder {} apart).observations where
  money := by
    have amounts : (deliver sampleRecorder {} apart).observations.filterMap Row.moneyUsd =
        [.finite false 48 (-3), .finite false 48 (-3)] := by decide
    rw [amounts]
    exact ⟨-3, by decide, by simp, by decide⟩
  exposure := by
    have amounts : (deliver sampleRecorder {} apart).observations.filterMap Row.pendingExposureUsd =
        [.finite false 48 (-3), .finite false 48 (-3)] := by decide
    rw [amounts]
    exact ⟨-3, by decide, by simp, by decide⟩
  latency := by
    have times : (deliver sampleRecorder {} apart).observations.filterMap Row.latencyS = [1, 2] := by
      decide +kernel
    rw [times]
    refine ⟨0, by decide, ?_, by norm_num [binary64]⟩
    rintro x (_ | ⟨_, _ | ⟨_, ⟨⟩⟩⟩)
    · exact ⟨1, by norm_num⟩
    · exact ⟨2, by norm_num⟩
  queueWait := by
    have times : (deliver sampleRecorder {} apart).observations.filterMap Row.queueWaitS = [] := by
      decide
    rw [times]
    exact ⟨0, by decide, by simp, by simp⟩

theorem apart_redelivered :
    report (deliver sampleRecorder {} (apart.reverse ++ apart)) = report (deliver sampleRecorder {} apart) := by
  obtain ⟨-, -, same⟩ := arrival_order apart_equal apart_accepted
  refine (same apart_alike _ fun o => ?_).2.2 apart_exact
  simp

def chain : List Observation :=
  [observed "request-1" "event-1" 1, observed "request-1" "event-2" 1, observed "request-2" "event-2" 1]

def tenths : List Observation := [observed "request-1" "event-1" (1 / 10), observed "request-2" "event-2" (1 / 5),
  observed "request-3" "event-3" (3 / 10)]

theorem rotated (o : Observation) : o ∈ chain.rotate 1 ↔ o ∈ chain := mem_rotate

theorem arrival_matters :
    (EqualPayloads sampleRecorder chain ∧ Accepts sampleRecorder {} chain ∧ Redelivers (chain.rotate 1) chain ∧
      (report (deliver sampleRecorder {} chain)).requests = 2 ∧
      (report (deliver sampleRecorder {} (chain.rotate 1))).requests = 1 ∧
      "request-2" ∉ (deliver sampleRecorder {} (chain.rotate 1)).observations.map Row.requestId) ∧
    (EqualPayloads sampleRecorder tenths ∧ Accepts sampleRecorder {} tenths ∧ Redelivers tenths.reverse tenths ∧
      (report (deliver sampleRecorder {} tenths)).latencyS ≠
        (report (deliver sampleRecorder {} tenths.reverse)).latencyS) := by
  have chained : Accepts sampleRecorder {} chain :=
    ⟨⟨true, by decide⟩, ⟨false, by decide +kernel⟩, ⟨true, by decide +kernel⟩, trivial⟩
  have measured : Accepts sampleRecorder {} tenths :=
    ⟨⟨true, by decide +kernel⟩, ⟨true, by decide +kernel⟩, ⟨true, by decide +kernel⟩, trivial⟩
  refine ⟨⟨by decide +kernel, chained, rotated, ?_⟩, ⟨by decide +kernel, measured, fun _ => mem_reverse, ?_⟩⟩
  all_goals decide +kernel

end VideoPoster.Autonomous.Observations

import VideoPoster.Executor.Steps

/-!
# Lineage
-/

namespace VideoPoster.Executor
open Python Billing Tables Interleaving Table Category Row

variable {D : Deployment} {jobs : Jobs} {files : Files}

def Follows (jobs : Jobs) (row previous : Row) : Prop :=
  row ∈ jobs ∧ previous ∈ jobs ∧ row.mode = previous.mode ∧ row.predecessor = previous.requestId

structure Lineage (jobs : Jobs) (mode : Mode) : Prop where
  capacity : ∀ category capacity, category.capacity = .ok capacity →
    (inMode jobs mode).countP (fun row => row.category = category) ≤ capacity
  single : ∀ a ∈ inMode jobs mode, ∀ b ∈ inMode jobs mode, a.category ∈ [first, .hero] →
    a.category = b.category → a.scene = b.scene → a = b
  retry : ∀ row ∈ inMode jobs mode, row.category ∈ [alternative, .correction, .heroRetry] →
    ∃ previous, Follows jobs row previous ∧ previous.scene = row.scene ∧
      previous.qa = some false ∧ previous.category ∈ row.category.retries
  hero : ∀ row ∈ inMode jobs mode, row.category = .hero →
    ∃ previous, Follows jobs row previous ∧ previous.scene = row.scene ∧
      previous.qa = some true ∧ previous.category = .first
  unshared : ∀ a ∈ inMode jobs mode, ∀ b ∈ inMode jobs mode, ∀ previous ∈ inMode jobs mode,
    a.predecessor = previous.requestId → b.predecessor = previous.requestId → a = b

/-- The rows with their predecessors are a disjoint union of finite chains: a row has at most one
predecessor and at most one successor, and no row is its own ancestor. -/
structure Chains (jobs : Jobs) : Prop where
  predecessor : ∀ row a b, Follows jobs row a → Follows jobs row b → a = b
  successor : ∀ previous a b, Follows jobs a previous → Follows jobs b previous → a = b
  acyclic : ∀ row, ¬ Relation.TransGen (Follows jobs) row row

def Category.isRetry (category : Category) : Prop :=
  category ∈ [alternative, .correction, .heroRetry]

instance (category : Category) : Decidable category.isRetry :=
  inferInstanceAs (Decidable (category ∈ _))

def Precedes (row previous : Row) : Prop :=
  previous.scene = row.scene ∧
    (row.category = .hero ∧ previous.qa = some true ∧ previous.category = .first ∨
      row.category.isRetry ∧ previous.qa = some false ∧ previous.category ∈ row.category.retries)

/-- The rules as they are kept, with the order in which the rows were inserted. -/
structure LineageInv (jobs : Jobs) : Prop where
  identified : ∀ row ∈ jobs, row.requestId ≠ ""
  named : ∀ row ∈ jobs, row.category = .hero ∨ row.category.isRetry →
    ∃ previous, Follows jobs row previous ∧ Precedes row previous
  root : ∀ row ∈ jobs, row.category ≠ .hero → ¬ row.category.isRetry → row.predecessor = ""
  single : ∀ a ∈ jobs, ∀ b ∈ jobs, a.mode = b.mode → a.category ∈ [first, .hero] →
    a.category = b.category → a.scene = b.scene → a = b
  unshared : ∀ a ∈ jobs, ∀ b ∈ jobs, a.mode = b.mode → a.category.isRetry →
    b.category.isRetry → a.predecessor = b.predecessor → a = b
  capacity : ∀ mode category capacity, category.capacity = .ok capacity →
    (jobs.sum fun row => if row.mode = mode ∧ row.category = category then 1 else 0) ≤ capacity
  ranked : ∃ rank : String → ℕ, ∀ row ∈ jobs, ∀ previous ∈ jobs,
    row.predecessor = previous.requestId → rank previous.requestId < rank row.requestId

theorem countP_inMode (mode : Mode) (category : Category) : (inMode jobs mode).countP (fun row => row.category =
    category) = jobs.sum fun row => if row.mode = mode ∧ row.category = category then 1 else 0 := by
  simp only [inMode, sum]
  induction jobs.rows with
  | nil => rfl
  | cons row rest ih =>
    by_cases sameMode : row.mode = mode <;> by_cases sameCategory : row.category = category <;>
      simp_all [Nat.add_comm]

variable {row previous : Row}

section
variable (inv : LineageInv jobs)
include inv

theorem LineageInv.predecessor_mode (member : row ∈ jobs) (previousMember : previous ∈ jobs)
    (names : row.predecessor = previous.requestId) : row.mode = previous.mode ∧ Precedes row previous := by
  by_cases kind : row.category = .hero ∨ row.category.isRetry
  · obtain ⟨other, ⟨-, otherMember, mode, otherNames⟩, precedes⟩ := inv.named row member kind
    obtain rfl := eq_of_key otherMember previousMember (otherNames.symm.trans names)
    exact ⟨mode, precedes⟩
  · push Not at kind
    have none := inv.root row member kind.1 kind.2
    exact absurd (names.symm.trans none) (inv.identified previous previousMember)

theorem LineageInv.eq_of_predecessor {a b : Row} (ha : a ∈ jobs) (hb : b ∈ jobs) (member : previous ∈ jobs)
    (namesA : a.predecessor = previous.requestId) (namesB : b.predecessor = previous.requestId) : a = b := by
  obtain ⟨modeA, sceneA, kindA⟩ := inv.predecessor_mode ha member namesA
  obtain ⟨modeB, sceneB, kindB⟩ := inv.predecessor_mode hb member namesB
  have mode : a.mode = b.mode := modeA.trans modeB.symm
  rcases kindA with ⟨heroA, approved, -⟩ | ⟨retryA, rejected, -⟩ <;>
    rcases kindB with ⟨heroB, approved', -⟩ | ⟨retryB, rejected', -⟩
  · exact inv.single a ha b hb mode (by simp [heroA]) (heroA.trans heroB.symm)
      (sceneA.symm.trans sceneB)
  · simp [approved] at rejected'
  · simp [rejected] at approved'
  · exact inv.unshared a ha b hb mode retryA retryB (namesA.trans namesB.symm)

theorem LineageInv.lineage (mode : Mode) : Lineage jobs mode := by
  constructor
  · intro category capacity known
    rw [countP_inMode]
    exact inv.capacity mode category capacity known
  · intro a ha b hb kind category scene
    rw [mem_inMode] at ha hb
    exact inv.single a ha.1 b hb.1 (ha.2.trans hb.2.symm) kind category scene
  · intro row member kind
    obtain ⟨previous, follows, scene, hero | ⟨-, rejected, allowed⟩⟩ :=
      inv.named row (mem_inMode.mp member).1 (.inr kind)
    · simp [hero.1] at kind
    · exact ⟨previous, follows, scene, rejected, allowed⟩
  · intro row member kind
    obtain ⟨previous, follows, scene, hero | ⟨retry, -⟩⟩ :=
      inv.named row (mem_inMode.mp member).1 (.inl kind)
    · exact ⟨previous, follows, scene, hero.2⟩
    · simp [isRetry, kind] at retry
  · intro a ha b hb previous member namesA namesB
    rw [mem_inMode] at ha hb member
    exact inv.eq_of_predecessor ha.1 hb.1 member.1 namesA namesB

theorem LineageInv.chains : Chains jobs := by
  constructor
  · rintro row a b ⟨-, ha, -, namesA⟩ ⟨-, hb, -, namesB⟩
    exact eq_of_key ha hb (namesA.symm.trans namesB)
  · rintro previous a b ⟨ha, member, -, namesA⟩ ⟨hb, -, -, namesB⟩
    exact inv.eq_of_predecessor ha hb member namesA namesB
  · intro row cycle
    obtain ⟨rank, decreases⟩ := inv.ranked
    have falls {a b : Row} (path : Relation.TransGen (Follows jobs) a b) : rank b.requestId < rank a.requestId := by
      induction path with
      | single follows => exact decreases _ follows.1 _ follows.2.1 follows.2.2.2
      | tail _ follows ih => exact (decreases _ follows.1 _ follows.2.1 follows.2.2.2).trans ih
    exact lt_irrefl _ (falls cycle)

end

structure Row.Succeeds (new old : Row) : Prop where
  requestId : new.requestId = old.requestId
  request : new.request = old.request
  qa : old.qa ≠ none → new.qa = old.qa

theorem Row.Succeeds.refl (row : Row) : row.Succeeds row := ⟨rfl, rfl, fun _ => rfl⟩

theorem Row.Succeeds.mode {new old : Row} (succeeds : new.Succeeds old) : new.mode = old.mode :=
  congrArg Job.mode succeeds.request

theorem Row.Succeeds.category {new old : Row} (succeeds : new.Succeeds old) : new.category = old.category :=
  congrArg Job.category succeeds.request

theorem RowUpdate.succeeds {action : Act} {old new : Row} (update : RowUpdate D action old new) : new.Succeeds old := by
  refine ⟨update.requestId, update.request, ?_⟩
  cases update with
  | @changed E context given requestId update row guarded => cases update <;> exact fun _ => rfl
  | bound | pinned | admitted => exact fun _ => rfl
  | reviewed fresh => exact fun recorded => absurd (by simp [qa, fresh]) recorded

section Updated
variable {old new : Row} (found : jobs.find? new.requestId = some old) (succeeds : new.Succeeds old)
include found succeeds

theorem exists_origin (member : row ∈ jobs.put new) : ∃ origin ∈ jobs, row.Succeeds origin := by
  rcases mem_put.mp member with rfl | ⟨kept, -⟩
  · exact ⟨old, (find?_eq_some.mp found).1, succeeds⟩
  · exact ⟨row, kept, .refl row⟩

theorem exists_successor (member : row ∈ jobs) : ∃ later ∈ jobs.put new, later.Succeeds row := by
  by_cases same : row.requestId = new.requestId
  · obtain ⟨oldMember, oldKey⟩ := find?_eq_some.mp found
    obtain rfl := eq_of_key member oldMember (same.trans oldKey.symm)
    exact ⟨new, mem_put.mpr (.inl rfl), succeeds⟩
  · exact ⟨row, mem_put.mpr (.inr ⟨member, same⟩), .refl row⟩

theorem LineageInv.put (inv : LineageInv jobs) : LineageInv (jobs.put new) := by
  have origin {row : Row} (member : row ∈ jobs.put new) : ∃ origin ∈ jobs, row.Succeeds origin :=
    exists_origin found succeeds member
  have join {a b a' b' : Row} (ha : a ∈ jobs.put new) (hb : b ∈ jobs.put new) (sa : a.Succeeds a')
      (sb : b.Succeeds b') (equal : a' = b') : a = b :=
    eq_of_key ha hb (by rw [sa.requestId, sb.requestId, equal])
  constructor
  · intro row member
    obtain ⟨row', member', same⟩ := origin member
    exact same.requestId ▸ inv.identified row' member'
  · intro row member kind
    obtain ⟨row', member', same⟩ := origin member
    have request := same.request
    obtain ⟨previous', ⟨-, previousMember, mode, names⟩, scene, rule⟩ :=
      inv.named row' member' (by simpa only [category, request] using kind)
    obtain ⟨previous, previousMember', later⟩ := exists_successor found succeeds previousMember
    refine ⟨previous, ⟨member, previousMember', ?_, ?_⟩, ?_, ?_⟩
    · simpa only [Row.mode, request, later.request] using mode
    · simpa only [predecessor, request, later.requestId] using names
    · simpa only [Row.scene, request, later.request] using scene
    · simp only [category, request, later.request] at rule ⊢
      rcases rule with ⟨hero, approved, first⟩ | ⟨retry, rejected, allowed⟩
      · exact .inl ⟨hero, by rw [later.qa (by simp [approved]), approved], first⟩
      · exact .inr ⟨retry, by rw [later.qa (by simp [rejected]), rejected], allowed⟩
  · intro row member notHero notRetry
    obtain ⟨row', member', same⟩ := origin member
    simp only [category, predecessor, same.request] at notHero notRetry ⊢
    exact inv.root row' member' notHero notRetry
  · intro a ha b hb mode kind category scene
    obtain ⟨a', ha', sa⟩ := origin ha
    obtain ⟨b', hb', sb⟩ := origin hb
    simp only [Row.mode, Row.category, Row.scene, sa.request, sb.request] at mode kind category scene
    exact join ha hb sa sb (inv.single a' ha' b' hb' mode kind category scene)
  · intro a ha b hb mode kindA kindB names
    obtain ⟨a', ha', sa⟩ := origin ha
    obtain ⟨b', hb', sb⟩ := origin hb
    simp only [Row.mode, Row.category, Row.predecessor, sa.request, sb.request] at mode kindA kindB names
    exact join ha hb sa sb (inv.unshared a' ha' b' hb' mode kindA kindB names)
  · intro mode category capacity known
    rw [sum_put_same _ found]
    · exact inv.capacity mode category capacity known
    · rw [succeeds.mode, succeeds.category]
  · obtain ⟨rank, decreases⟩ := inv.ranked
    refine ⟨rank, fun row member previous previousMember names => ?_⟩
    obtain ⟨row', member', same⟩ := origin member
    obtain ⟨previous', previousMember', same'⟩ := origin previousMember
    rw [same.requestId, same'.requestId]
    refine decreases row' member' previous' previousMember' ?_
    simpa only [predecessor, same.request, same'.requestId] using names

end Updated

variable {job : Job}

theorem predecessorOf_eq_some (found : predecessorOf jobs job = some previous) :
    previous ∈ jobs ∧ previous.mode = job.mode ∧ previous.requestId = job.predecessor := by
  have member := mem_inMode.mp (List.mem_of_find?_eq_some found)
  exact ⟨member.1, member.2, by simpa using List.find?_some found⟩

theorem admitHero_ok (admitted : admitHero files jobs job = .ok ()) :
    ∃ previous, predecessorOf jobs job = some previous ∧ HeroPredecessor job previous := by
  unfold admitHero at admitted
  split at admitted
  · cases admitted
  · rename_i previous found
    simp only [bind_eq_ok, require_eq_ok, exists_const] at admitted
    exact ⟨previous, found, admitted.1⟩

theorem admitRetry_ok (admitted : admitRetry files jobs job = .ok ()) : ∃ previous, predecessorOf jobs job =
    some previous ∧ previous.qa = some false ∧ previous.scene = job.scene ∧ previous.category ∈ job.category.retries ∧
    job.category.isRetry ∧ ∀ row ∈ inMode jobs job.mode, row.predecessor ≠ job.predecessor := by
  unfold admitRetry at admitted
  split at admitted
  · cases admitted
  · rename_i previous found
    simp only [bind_eq_ok, require_eq_ok, exists_const] at admitted
    obtain ⟨⟨rejected, scene, -⟩, ⟨⟩, -, ⟨allowed, retry⟩, first⟩ := admitted
    exact ⟨previous, found, rejected, scene, allowed, retry, first⟩

theorem admitLineage_ok (admitted : admitLineage files jobs job = .ok ()) :
    (job.category = .hero ∧ ∃ previous, predecessorOf jobs job = some previous ∧ HeroPredecessor job previous) ∨
    (job.category.isRetry ∧ ∃ previous, predecessorOf jobs job = some previous ∧
      previous.qa = some false ∧ previous.scene = job.scene ∧
      previous.category ∈ job.category.retries ∧
      ∀ row ∈ inMode jobs job.mode, row.predecessor ≠ job.predecessor) ∨
    (job.category ≠ .hero ∧ ¬ job.category.isRetry ∧ job.predecessor = "") := by
  unfold admitLineage at admitted
  split_ifs at admitted with hero retry
  · exact .inl ⟨hero, admitHero_ok admitted⟩
  · obtain ⟨previous, found, rejected, scene, allowed, kind, first⟩ := admitRetry_ok admitted
    exact .inr (.inl ⟨kind, previous, found, rejected, scene, allowed, first⟩)
  · push Not at retry
    exact .inr (.inr ⟨hero, retry.1, retry.2⟩)

def rankLast (jobs : Jobs) (rank : String → ℕ) (new : String) (requestId : String) : ℕ :=
  if requestId = new then jobs.sum (fun row => rank row.requestId) + 1 else rank requestId

theorem rank_lt_rankLast {rank : String → ℕ} {new : String} (member : row ∈ jobs) (distinct : row.requestId ≠ new) :
    rankLast jobs rank new row.requestId < rankLast jobs rank new new := by
  have le : rank row.requestId ≤ jobs.sum fun row => rank row.requestId :=
    List.single_le_sum (by simp) _ (List.mem_map.mpr ⟨row, member, rfl⟩)
  simp only [rankLast, if_neg distinct, if_pos]
  omega

section Inserted
variable {r : Reservation}

theorem mem_insert (admitted : Admitted D files jobs r) : row ∈ jobs.put (r.row D) ↔ row = r.row D ∨ row ∈ jobs := by
  rw [mem_put]
  refine or_congr_right ⟨And.left, fun member => ⟨member, ?_⟩⟩
  exact find?_eq_none.mp admitted.absent row member

variable (inv : LineageInv jobs) (admitted : Admitted D files jobs r)
include inv admitted

theorem not_names_new (member : row ∈ jobs.put (r.row D)) : row.predecessor ≠ D.requestId r.job := by
  intro names
  rcases (mem_insert admitted).mp member with rfl | old
  · rcases admitLineage_ok admitted.lineage with ⟨-, previous, found, -⟩ | ⟨-, previous, found, -⟩ |
      ⟨-, -, none⟩
    · obtain ⟨previousMember, -, same⟩ := predecessorOf_eq_some found
      exact find?_eq_none.mp admitted.absent previous previousMember (same.trans names)
    · obtain ⟨previousMember, -, same⟩ := predecessorOf_eq_some found
      exact find?_eq_none.mp admitted.absent previous previousMember (same.trans names)
    · exact D.requestId_ne_empty r.job (names.symm.trans none)
  · by_cases kind : row.category = .hero ∨ row.category.isRetry
    · obtain ⟨previous, ⟨-, previousMember, -, same⟩, -⟩ := inv.named row old kind
      exact find?_eq_none.mp admitted.absent previous previousMember (same.symm.trans names)
    · push Not at kind
      exact D.requestId_ne_empty r.job (names.symm.trans (inv.root row old kind.1 kind.2))

theorem LineageInv.insert : LineageInv (jobs.put (r.row D)) := by
  have mem {row : Row} : row ∈ jobs.put (r.row D) ↔ row = r.row D ∨ row ∈ jobs := mem_insert admitted
  have lineage := admitLineage_ok admitted.lineage
  -- a second row of the scene would have been refused
  have alone {b : Row} (hb : b ∈ jobs) (mode : b.mode = r.job.mode)
      (kind : r.job.category ∈ [first, .hero]) (category : b.category = r.job.category)
      (scene : b.scene = r.job.scene) : False :=
    admitted.single kind b (mem_inMode.mpr ⟨hb, mode⟩) ⟨scene, category⟩
  have unshared {b : Row} (hb : b ∈ jobs) (mode : b.mode = r.job.mode) (kind : r.job.category.isRetry)
      (names : b.predecessor = r.job.predecessor) : False := by
    rcases lineage with ⟨hero, -⟩ | ⟨-, previous, -, -, -, -, first⟩ | ⟨-, notRetry, -⟩
    · simp [isRetry, hero] at kind
    · exact first b (mem_inMode.mpr ⟨hb, mode⟩) names
    · exact notRetry kind
  constructor
  · intro row member
    rcases mem.mp member with rfl | old
    · exact D.requestId_ne_empty r.job
    · exact inv.identified row old
  · intro row member kind
    rcases mem.mp member with rfl | old
    · rcases lineage with ⟨hero, previous, found, approved, scene, -, first⟩ |
        ⟨retry, previous, found, rejected, scene, allowed, -⟩ | ⟨notHero, notRetry, -⟩
      · obtain ⟨previousMember, mode, same⟩ := predecessorOf_eq_some found
        exact ⟨previous, ⟨member, mem.mpr (.inr previousMember), mode.symm, same.symm⟩, scene,
          .inl ⟨hero, approved, first⟩⟩
      · obtain ⟨previousMember, mode, same⟩ := predecessorOf_eq_some found
        exact ⟨previous, ⟨member, mem.mpr (.inr previousMember), mode.symm, same.symm⟩, scene,
          .inr ⟨retry, rejected, allowed⟩⟩
      · exact absurd kind (not_or.mpr ⟨notHero, notRetry⟩)
    · obtain ⟨previous, ⟨-, previousMember, mode, same⟩, precedes⟩ := inv.named row old kind
      exact ⟨previous, ⟨member, mem.mpr (.inr previousMember), mode, same⟩, precedes⟩
  · intro row member notHero notRetry
    rcases mem.mp member with rfl | old
    · rcases lineage with ⟨hero, -⟩ | ⟨retry, -⟩ | ⟨-, -, none⟩
      · exact absurd hero notHero
      · exact absurd retry notRetry
      · exact none
    · exact inv.root row old notHero notRetry
  · intro a ha b hb mode kind category scene
    rcases mem.mp ha with rfl | oldA <;> rcases mem.mp hb with rfl | oldB
    · rfl
    · exact (alone oldB mode.symm kind category.symm scene.symm).elim
    · have kind' : r.job.category ∈ [first, .hero] := by
        rw [← show a.category = r.job.category from category]
        exact kind
      exact (alone oldA mode kind' category scene).elim
    · exact inv.single a oldA b oldB mode kind category scene
  · intro a ha b hb mode kindA kindB names
    rcases mem.mp ha with rfl | oldA <;> rcases mem.mp hb with rfl | oldB
    · rfl
    · exact (unshared oldB mode.symm kindA names.symm).elim
    · exact (unshared oldA mode kindB names).elim
    · exact inv.unshared a oldA b oldB mode kindA kindB names
  · intro mode category capacity known
    rw [sum_put_new _ admitted.absent]
    split_ifs with counted
    · obtain ⟨rfl, rfl⟩ := counted
      obtain ⟨limit, limitKnown, room⟩ := admitted.capacity
      obtain rfl := Except.ok.inj (limitKnown.symm.trans known)
      rw [countP_inMode] at room
      exact Nat.add_comm 1 _ ▸ room
    · simpa using inv.capacity mode category capacity known
  · obtain ⟨rank, decreases⟩ := inv.ranked
    refine ⟨rankLast jobs rank (D.requestId r.job), fun row member previous previousMember names => ?_⟩
    rcases mem.mp previousMember with rfl | oldPrevious
    · exact absurd names (not_names_new inv admitted member)
    · have distinct := find?_eq_none.mp admitted.absent previous oldPrevious
      rcases mem.mp member with rfl | old
      · exact rank_lt_rankLast oldPrevious distinct
      · have distinct' := find?_eq_none.mp admitted.absent row old
        simp only [rankLast, if_neg distinct, if_neg distinct']
        exact decreases row old previous oldPrevious names

end Inserted

theorem LineageInv.empty : LineageInv (empty : Jobs) := by
  constructor
  case capacity => simp
  case ranked => exact ⟨fun _ => 0, fun row member => by cases member⟩
  all_goals
    intro row member
    cases member

theorem LineageInv.performs {s s' : Shared (machine D)} {pid : ℕ} {action : Act} {response : action.Res}
    (inv : LineageInv s.world.jobs) (performs : Performs pid action response s s') : LineageInv s'.world.jobs := by
  have change := performs_jobs performs
  generalize s'.world.jobs = after at change
  cases change with
  | same => exact inv
  | inserted admitted => exact inv.insert admitted
  | updated succeeds target found update =>
    obtain ⟨-, key⟩ := find?_eq_some.mp found
    exact inv.put (by rw [update.requestId, key, found]) update.succeeds

theorem LineageInv.of_reaches {kinds : Set Call} {c : Config (machine D) Error}
    (reaches : Reaches (callsIn D kinds) anyStep (freshRoot D) c) : LineageInv c.world.jobs :=
  reaches.invariant (K := fun s : Shared (machine D) => LineageInv s.world.jobs)
    (fun inv => inv.performs) (fun _ => id) LineageInv.empty

/-- The lineage rules hold in every mode of every reachable table, whatever the calls, their
interleaving and the crashes. -/
theorem lineage_of_reachable (D : Deployment) (c : Config (machine D) Error) (reachable : Reaches (callsIn D Set.univ)
    anyStep (freshRoot D) c) : (∀ mode, Lineage c.world.jobs mode) ∧ Chains c.world.jobs := by
  have inv := LineageInv.of_reaches reachable
  exact ⟨inv.lineage, inv.chains⟩

def correctedTurns : List Turn :=
  [⟨.run sampleRun, sampleOracle none (sampleProvider 1), 16, false⟩,
    ⟨.qa (sampleReview sampleFirstId false), sampleOracle none (sampleProvider 1), 2, false⟩,
    ⟨.prepareIntent sampleExecutor sampleCorrection none none none, sampleOracle none (sampleProvider 1), 5, false⟩]

theorem correctedTurns_lineage : ∃ c, Reaches (callsIn (sampleDeployment 6) Set.univ)
    anyStep (freshRoot (sampleDeployment 6)) c ∧ c.world.jobs.rows.map category =
    [.correction, .first] ∧ (∀ mode, Lineage c.world.jobs mode) ∧ Chains c.world.jobs := by
  have passed : (after (sampleDeployment 6) anyStep (freshRoot _) correctedTurns).any
      (fun c => decide (c.world.jobs.rows.map category = [.correction, .first])) = true := by
    decide +kernel
  obtain ⟨c, reached, categories⟩ :=
    exists_reaches_of_after _ anyStep Set.univ (fun _ _ => trivial) passed
  exact ⟨c, reached, of_decide_eq_true categories, lineage_of_reachable _ c reached⟩

end VideoPoster.Executor
